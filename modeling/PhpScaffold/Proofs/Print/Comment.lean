import PhpScaffold.Proofs.Print.Place

namespace PhpScaffold

namespace Print

open Text (isBlank words StandsIn)
open Except (bind_eq_ok forall₂_of_mapM)

/-! Reading a comment -/

def readToEnd : List Char → Option (List Char × List Char)
  | [] => none
  | '*' :: '/' :: r => some (['*', '/'], r)
  | c :: r => (readToEnd r).map fun p => (c :: p.1, p.2)

def readComment (s : String) : Option (String × String) :=
  match s.toList with
  | '/' :: '*' :: r => (readToEnd r).map fun p => (.ofList ('/' :: '*' :: p.1), .ofList p.2)
  | _ => none

def EndsComment (s : String) : Prop := ['*', '/'] <:+: s.toList

instance (s : String) : Decidable (EndsComment s) := inferInstanceAs (Decidable (_ <:+: _))

variable {t rest : List Char}

theorem readToEnd_cons {c : Char} (h : c = '*' → t.head? ≠ some '/') :
    readToEnd (c :: t) = (readToEnd t).map fun p => (c :: p.1, p.2) := by
  rw [readToEnd.eq_def]
  split
  · simp_all
  · simp_all
  · simp_all

theorem readToEnd_eq_iff (t rest : List Char) :
    readToEnd (t ++ '*' :: '/' :: rest) = some (t ++ ['*', '/'], rest) ↔ ¬['*', '/'] <:+: t := by
  induction t with
  | nil => simp [readToEnd]
  | cons c r ih =>
    by_cases ends : c = '*' ∧ r.head? = some '/'
    · obtain ⟨rfl, next⟩ := ends
      obtain ⟨u, rfl⟩ := List.head?_eq_some_iff.1 next
      refine iff_of_false (fun read => ?_) fun clear => clear ⟨[], u, rfl⟩
      have first : ['*', '/'] = '*' :: '/' :: (u ++ ['*', '/']) :=
        congrArg Prod.fst (Option.some.inj (show some (_, _) = some (_, _) from read))
      simp at first
    · have apart : c = '*' → (r ++ '*' :: '/' :: rest).head? ≠ some '/' := by
        rintro rfl next
        cases r with
        | nil => simp at next
        | cons d r => exact ends ⟨rfl, next⟩
      have inside : ['*', '/'] <:+: c :: r ↔ ['*', '/'] <:+: r := by
        rw [List.infix_cons_iff, or_iff_right]
        rintro ⟨u, front⟩
        obtain ⟨rfl, rfl⟩ := List.cons.inj front
        exact ends ⟨rfl, rfl⟩
      rw [List.cons_append, readToEnd_cons apart, inside, ← ih]
      cases readToEnd (r ++ '*' :: '/' :: rest) with
      | none => simp
      | some p => simp [Prod.ext_iff]

theorem readComment_eq_iff {inner : String} (front : ∀ c ∈ inner.toList.head?, isBlank c) (trail : String) :
    readComment ("/**" ++ inner ++ "*/" ++ trail) = some ("/**" ++ inner ++ "*/", trail) ↔ ¬EndsComment inner := by
  have written : ("/**" ++ inner ++ "*/" ++ trail).toList =
      '/' :: '*' :: (('*' :: inner.toList) ++ '*' :: '/' :: trail.toList) := by simp
  have inside : ['*', '/'] <:+: '*' :: inner.toList ↔ EndsComment inner := by
    rw [List.infix_cons_iff, EndsComment, or_iff_right]
    rintro ⟨u, starts⟩
    have slash := front '/' (by rw [← (List.cons.inj starts).2]; rfl)
    exact absurd slash (by decide)
  let wrap (p : List Char × List Char) := (String.ofList ('/' :: '*' :: p.1), String.ofList p.2)
  have injective : Function.Injective wrap := by
    rintro ⟨a, b⟩ ⟨c, d⟩ same
    obtain ⟨first, second⟩ := Prod.mk.inj same
    rw [String.ofList_inj] at first second
    exact Prod.ext (List.cons.inj (List.cons.inj first).2).2 second
  have target : (some ("/**" ++ inner ++ "*/", trail) : Option (String × String)) =
      (some ('*' :: inner.toList ++ ['*', '/'], trail.toList)).map wrap := by
    simp [wrap, ← String.toList_inj]
  rw [readComment, written, ← inside, ← readToEnd_eq_iff _ trail.toList, target]
  exact (Option.map_injective injective).eq_iff

/-! The words of a comment -/

inductive Comment
  | block (lines : List String)
  | line (lines : List String)

namespace Comment

def lines : Comment → List String
  | block ls | line ls => ls

def inner : Comment → List (List Char)
  | block ls => ls.flatMap fun l => ['*'] :: words l.toList
  | line ls => ls.flatMap fun l => words l.toList

def words (c : Comment) : List (List Char) := "/**".toList :: c.inner ++ ["*/".toList]

theorem exists_infix_inner (c : Comment) :
    (∃ w ∈ c.inner, ['*', '/'] <:+: w) ↔ ∃ l ∈ c.lines, EndsComment l := by
  have each (l : String) : (∃ w ∈ Text.words l.toList, ['*', '/'] <:+: w) ↔ EndsComment l :=
    Text.exists_mem_words_infix (by simp) (by decide)
  have star : ¬['*', '/'] <:+: ['*'] := by decide
  cases c with
  | block ls =>
    simp only [inner, lines, List.mem_flatMap, List.mem_cons, ← each]
    constructor
    · rintro ⟨w, ⟨l, hl, rfl | hw⟩, ends⟩
      · exact absurd ends star
      · exact ⟨l, hl, w, hw, ends⟩
    · rintro ⟨l, hl, w, hw, ends⟩
      exact ⟨w, ⟨l, hl, .inr hw⟩, ends⟩
  | line ls =>
    simp only [inner, lines, List.mem_flatMap, ← each]
    constructor
    · rintro ⟨w, ⟨l, hl, hw⟩, ends⟩
      exact ⟨l, hl, w, hw, ends⟩
    · rintro ⟨l, hl, w, hw, ends⟩
      exact ⟨w, ⟨l, hl, hw⟩, ends⟩

end Comment

/-- Where the words of a comment are, the comment is, and it is read as far as it was meant to go unless it ends
itself.  What the words are followed by is behind it. -/
theorem exists_comment {out : String} {c : Comment} {code : List (List Char)}
    (h : c.words ++ code <:+: words out.toList) :
    ∃ lead inner trail, out = lead ++ ("/**" ++ inner ++ "*/" ++ trail) ∧ words inner.toList = c.inner ∧
      code <+: words trail.toList ∧
      (readComment ("/**" ++ inner ++ "*/" ++ trail) = some ("/**" ++ inner ++ "*/", trail) ↔
        ∀ l ∈ c.lines, ¬EndsComment l) := by
  obtain ⟨before, behind, whole⟩ := h
  have opened : words out.toList = before ++ "/**".toList :: (c.inner ++ "*/".toList :: (code ++ behind)) := by
    rw [← whole]
    simp [Comment.words]
  obtain ⟨lead, r, front, -, inside, -, stop⟩ := Text.exists_of_words_append opened
  obtain ⟨inner, trail, back, held, rest, -⟩ := Text.exists_of_words_append inside
  have blank : ∀ c ∈ (String.ofList inner).toList.head?, isBlank c := by
    rw [String.toList_ofList]
    intro d hd
    obtain ⟨u, rfl⟩ := List.head?_eq_some_iff.1 hd
    exact stop d (by simp [back])
  refine ⟨.ofList lead, .ofList inner, .ofList trail, ?_, by rwa [String.toList_ofList], ?_, ?_⟩
  · rw [← String.toList_inj, front, back]
    simp
  · rw [String.toList_ofList, rest]
    exact List.prefix_append code behind
  · rw [readComment_eq_iff blank, EndsComment, String.toList_ofList,
      ← Text.exists_mem_words_infix (x := ['*', '/']) (by simp) (by decide), held, c.exists_infix_inner]
    simp

/-! Where comments are printed -/

theorem words_docblock {ls : List String} (some : ls ≠ []) : words (docblock ls).toList = (Comment.block ls).words := by
  have line (l : String) : words (if l.isEmpty then " *" else " * " ++ l).toList = ['*'] :: words l.toList := by
    split
    · rename_i empty
      rw [String.isEmpty_iff.1 empty]
      decide
    · rw [String.toList_append]
      exact Text.words_append_blank (s := [' ', '*']) (by decide) l.toList
  have joined : (docblock ls).toList = "/**".toList ++ '\n' ::
      (("\n".intercalate (ls.map fun l => if l.isEmpty then " *" else " * " ++ l)).toList ++ '\n' :: " */".toList) := by
    rw [docblock, if_neg (by simpa using some)]
    simp
  have inner := Text.words_intercalate '\n' (by decide) (ls.map fun l => if l.isEmpty then " *" else " * " ++ l)
  rw [List.flatMap_map, List.flatMap_congr fun l _ => line l] at inner
  rw [joined, Text.words_append_blank (by decide), Text.words_append_blank (by decide)]
  change _ ++ (words ("\n".intercalate _).toList ++ _) = _
  rw [show "\n" = String.singleton '\n' from rfl, inner]
  rfl

def fileBlock (ls : List String) : String := "/**\n" ++ (String.join (ls.map (" * " ++ · ++ "\n")) ++ " */")

theorem words_fileBlock (ls : List String) : words (fileBlock ls).toList = (Comment.block ls).words := by
  have inner : words (String.join (ls.map (" * " ++ · ++ "\n")) ++ " */").toList =
      ls.flatMap (fun l => ['*'] :: words l.toList) ++ ["*/".toList] := by
    induction ls with
    | nil => decide
    | cons l r ih =>
      have line : (String.join ((l :: r).map (" * " ++ · ++ "\n")) ++ " */").toList = [' ', '*'] ++ ' ' :: (l.toList ++
          '\n' :: (String.join (r.map (" * " ++ · ++ "\n")) ++ " */").toList) := by
        simp
      have star : words [' ', '*'] = [['*']] := by decide
      rw [line, Text.words_append_blank (by decide), Text.words_append_blank (by decide), ih, star]
      simp
  have front : (fileBlock ls).toList = "/**".toList ++
      '\n' :: (String.join (ls.map (" * " ++ · ++ "\n")) ++ " */").toList := by
    simp [fileBlock]
  rw [front, Text.words_append_blank (by decide), inner]
  rfl

variable {ns : Namespace} {e : Element} {f : SourceFile} {out s : String} {ls : List String}

theorem prefix_docblock (some : ls ≠ []) (rest : String) :
    (Comment.block ls).words <+: words (docblock ls ++ "\n" ++ rest).toList := by
  have lines : (docblock ls ++ "\n" ++ rest).toList = (docblock ls).toList ++ '\n' :: rest.toList := by simp
  rw [lines, Text.words_append_blank (by decide), words_docblock some]
  exact List.prefix_append _ _

theorem prefix_header {attributes : List Attribute} {lead : String} (h : header ns ls attributes = .ok lead)
    (some : ls ≠ []) (rest : String) : (Comment.block ls).words <+: words (lead ++ rest).toList := by
  obtain ⟨lines, -, h⟩ := bind_eq_ok.1 h
  obtain rfl := Except.ok.inj h
  rw [if_neg (by simpa using docblock_ne_empty some), List.singleton_append, List.map_cons, String.join_cons,
    String.append_assoc]
  exact prefix_docblock some _

theorem prefix_annotated {a : Annotations} {lead : String} (h : annotated ns a = .ok lead)
    (read : commentLines a.comment = .ok ls) (some : ls ≠ []) (rest : String) :
    (Comment.block ls).words <+: words (lead ++ rest).toList := by
  obtain ⟨doc, same, fronted⟩ := bind_eq_ok.1 h
  obtain rfl := Except.ok.inj (same.symm.trans read)
  exact prefix_header fronted some rest

theorem prefix_remark {v : Value} (given : v.truthy) (read : commentLines v = .ok ls) (h : remark v = .ok s)
    (code : String) : (Comment.line ls).words <+: words (s ++ code).toList := by
  rw [remark, given, Bool.not_true, if_neg Bool.false_ne_true, read, Except.ok_bind] at h
  have written : s = "/** " ++ " ".intercalate ls ++ " */\n" := by
    split at h
    · cases h
    · exact (Except.ok.inj h).symm
  have joined : (s ++ code).toList =
      "/**".toList ++ ' ' :: ((" ".intercalate ls).toList ++ ' ' :: ("*/".toList ++ '\n' :: code.toList)) := by
    simp [written]
  have inner := Text.words_intercalate ' ' (by decide) ls
  rw [show String.singleton ' ' = " " from rfl] at inner
  rw [joined, Text.words_append_blank (by decide), Text.words_append_blank (by decide),
    Text.words_append_blank (by decide), inner, ← List.append_assoc, ← List.append_assoc]
  exact List.prefix_append _ _

theorem indent_mem_signature (start returns : String) {ps : List String} {p : String} (h : p ∈ ps) :
    ∃ a b, (signature start ps true returns).text = a ++ ("\n" ++ (Text.indent (p ++ ",") ++ ("\n" ++ b))) := by
  obtain ⟨before, after, rfl⟩ := List.append_of_mem h
  have some : (before ++ p :: after).isEmpty = false := by simp
  let own (p : String) := Text.indent (p ++ ",")
  refine ⟨"\n".intercalate ((start ++ "(") :: before.map own), "\n".intercalate (after.map own ++ [")" ++ returns]), ?_⟩
  have lines : [start ++ "("] ++ (before ++ p :: after).map own ++ [")" ++ returns] =
      ((start ++ "(") :: before.map own) ++ ([own p] ++ (after.map own ++ [")" ++ returns])) := by
    simp
  rw [signature, some]
  change "\n".intercalate ([start ++ "("] ++ (before ++ p :: after).map own ++ [")" ++ returns]) = _
  rw [lines, String.intercalate_append_of_ne_nil (by simp) (by simp),
    String.intercalate_append_of_ne_nil (by simp) (by simp), String.intercalate_singleton]
  simp only [String.append_assoc]
  rfl

theorem exists_parameter_infix {bodyless : Bool} {m : Method} {p : Parameter} (h : method ns bodyless m = .ok s)
    (hp : p ∈ m.parameters.values) (given : p.annotations.comment.truthy) :
    ∃ w, parameter ns p = .ok w ∧ words (w.1 ++ ",").toList <:+: words s.toList := by
  obtain ⟨doc, sig, lead, tail, -, headed, -, rfl, -⟩ := method_eq_ok h
  obtain ⟨written, each, made⟩ := bind_eq_ok.1 headed
  obtain ⟨returns, -, made⟩ := bind_eq_ok.1 made
  obtain rfl := Except.ok.inj made
  obtain ⟨w, hw, printed⟩ := (forall₂_of_mapM each).exists_of_mem hp
  have alone : m.parameters.values.any standsAlone = true :=
    List.any_eq_true.2 ⟨p, hp, by simp [standsAlone, given]⟩
  obtain ⟨a, b, wrapped⟩ := indent_mem_signature (" ".intercalate (methodModifiers m) ++ " function " ++
    m.name.display) ((returns.map (": " ++ ·.plain)).getD "") (List.mem_map_of_mem (f := Prod.fst) hw)
  refine ⟨w, printed, ?_⟩
  rw [headOf, alone, wrapped, ← Text.words_indent]
  have laid (t : String) : lead ++ (a ++ ("\n" ++ (t ++ ("\n" ++ b))) ++ (terminator bodyless m ++ tail)) =
      (lead ++ a) ++ ("\n" ++ (t ++ ("\n" ++ (b ++ (terminator bodyless m ++ tail))))) := by
    simp only [String.append_assoc]
  rw [laid]
  exact (StandsIn.around _ _ _).words

/-- The lines of the comment in front of a property: its own, and the type of which its code says only a part. -/
def propertyDoc (ns : Namespace) (p : Property) : Except Fault (List String) := do
  let comment ← commentLines p.annotations.comment
  let type ← writeType? ns p.type p.nullable
  return comment ++ (full type).toList.map ("@var " ++ ·)

/-- The comments that a file is printed with, each with the words of what it is printed for, itself included.  With a
file these are all but the opening of the code. -/
inductive HasComment (f : SourceFile) : Comment → List (List Char) → Prop
  | file {out : String} {ls : List String} (printed : Print.file {} f = .ok out)
    (read : commentLines f.comment = .ok ls) (some : ls ≠ []) : HasComment f (.block ls) (words out.toList).tail
  | element {ns : Namespace} {e : Element} {s : String} {ls : List String} (hn : ns ∈ f.namespaces.values)
    (he : e ∈ ns.elements.values) (printed : Print.element (.ok Template.elementLayout) ns e = .ok s)
    (read : commentLines e.annotations.comment = .ok ls) (some : ls ≠ []) : HasComment f (.block ls) (words s.toList)
  | enumCase {ns : Namespace} {e : Element} {c : EnumCase} {s : String} {ls : List String}
    (hn : ns ∈ f.namespaces.values) (he : e ∈ ns.elements.values) (hc : c ∈ e.cases)
    (printed : Print.enumCase ns c = .ok s) (read : commentLines c.annotations.comment = .ok ls) (some : ls ≠ []) :
    HasComment f (.block ls) (words s.toList)
  | constant {ns : Namespace} {e : Element} {c : Constant} {s : String} {ls : List String}
    (hn : ns ∈ f.namespaces.values) (he : e ∈ ns.elements.values) (hc : c ∈ e.constants.values)
    (printed : Print.constant ns c = .ok s) (read : commentLines c.annotations.comment = .ok ls) (some : ls ≠ []) :
    HasComment f (.block ls) (words s.toList)
  | property {ns : Namespace} {e : Element} {p : Property} {s : String} {ls : List String}
    (hn : ns ∈ f.namespaces.values) (he : e ∈ ns.elements.values) (hp : p ∈ e.properties)
    (printed : Print.property ns p = .ok s) (read : propertyDoc ns p = .ok ls) (some : ls ≠ []) :
    HasComment f (.block ls) (words s.toList)
  | method {ns : Namespace} {e : Element} {m : Method} {s : String} {ls : List String}
    (hn : ns ∈ f.namespaces.values) (he : e ∈ ns.elements.values) (hm : m ∈ e.methods.values)
    (printed : Print.method ns (e.kind = .interface) m = .ok s) (read : methodDoc ns m = .ok ls) (some : ls ≠ []) :
    HasComment f (.block ls) (words s.toList)
  | parameter {ns : Namespace} {e : Element} {m : Method} {p : Parameter} {w : String × Option String}
    {ls : List String} (hn : ns ∈ f.namespaces.values) (he : e ∈ ns.elements.values) (hm : m ∈ e.methods.values)
    (hp : p ∈ m.parameters.values) (printed : Print.parameter ns p = .ok w) (given : p.annotations.comment.truthy)
    (read : commentLines p.annotations.comment = .ok ls) : HasComment f (.line ls) (words (w.1 ++ ",").toList)

/-! What a comment is printed for begins with it -/

theorem prefix_file (h : file {} f = .ok out) (read : commentLines f.comment = .ok ls) (some : ls ≠ []) :
    (Comment.block ls).words <+: (words out.toList).tail := by
  rw [file_eq] at h
  obtain ⟨scopes, -, h⟩ := bind_eq_ok.1 h
  obtain ⟨comment, same, h⟩ := bind_eq_ok.1 h
  obtain rfl := Except.ok.inj (same.symm.trans read)
  obtain rfl := Except.ok.inj h
  let rest := (if f.strictTypes.truthy then "\ndeclare(strict_types=1);\n" else "") ++
    String.join (scopes.map Template.Scope.text)
  have laid : (Template.fileText comment f.strictTypes scopes).toList =
      "<?php".toList ++ '\n' :: '\n' :: ((fileBlock comment).toList ++ '\n' :: rest.toList) := by
    rw [Template.fileText, if_neg (by simpa using some), fileBlock]
    simp [rest, String.append_assoc]
  have opened : words "<?php".toList = ["<?php".toList] := by decide
  rw [Lint.words_lint, laid, Text.words_append_blank (by decide), Text.words_blank_cons (by decide),
    Text.words_append_blank (by decide), words_fileBlock, opened]
  exact List.prefix_append _ _

theorem prefix_element (h : element (.ok Template.elementLayout) ns e = .ok s)
    (read : commentLines e.annotations.comment = .ok ls) (some : ls ≠ []) :
    (Comment.block ls).words <+: words s.toList := by
  obtain ⟨ss, comment, attributes, header, -, same, -, -, rfl⟩ := element_eq_ok h
  obtain rfl := Except.ok.inj (same.symm.trans read)
  rw [Template.elementText, if_neg (by simpa using docblock_ne_empty some)]
  exact prefix_docblock some _

theorem HasComment.starts {c : Comment} {ws : List (List Char)} (h : HasComment f c ws) : c.words <+: ws := by
  cases h with
  | file printed read some => exact prefix_file printed read some
  | element _ _ printed read some => exact prefix_element printed read some
  | enumCase _ _ _ printed read some =>
    obtain ⟨lead, tail, fronted, rfl, -⟩ := enumCase_eq_ok printed
    exact prefix_annotated fronted read some tail
  | constant _ _ _ printed read some =>
    obtain ⟨lead, start, code, fronted, -, rfl⟩ := constant_eq_ok printed
    exact prefix_annotated fronted read some _
  | property _ _ _ printed read some =>
    obtain ⟨comment, type, lead, modifiers, tail, commented, typed, fronted, rfl, -⟩ := property_eq_ok printed
    rw [propertyDoc, commented, Except.ok_bind, typed, Except.ok_bind] at read
    rw [Except.ok.inj read] at fronted
    exact prefix_header fronted some _
  | method _ _ _ printed read some =>
    obtain ⟨doc, sig, lead, tail, same, -, fronted, rfl, -⟩ := method_eq_ok printed
    obtain rfl := Except.ok.inj (same.symm.trans read)
    exact prefix_header fronted some _
  | parameter _ _ _ _ printed given read =>
    obtain ⟨attributes, promotion, type, name, note, -, -, -, noted, rfl⟩ := parameter_eq_ok printed
    rw [String.append_assoc]
    exact prefix_remark given read noted _

/-! What a comment is printed for stands in the file -/

theorem words_infix_file (h : file {} f = .ok out) (hn : ns ∈ f.namespaces.values) (he : e ∈ ns.elements.values) :
    ∃ ss, sections ns e = .ok ss ∧ ∀ s ∈ ss, words s.toList <:+: words out.toList := by
  obtain ⟨t, source, printed, stands, rfl⟩ := element_standsIn h hn he
  obtain ⟨ss, comment, attributes, header, sectioned, -, -, -, rfl⟩ := element_eq_ok printed
  refine ⟨ss, sectioned, fun s hs => ?_⟩
  rw [Lint.words_lint, ← Text.words_block s]
  exact ((block_standsIn hs).trans stands).words

theorem HasComment.stands {c : Comment} {ws : List (List Char)} (h : Print.file {} f = .ok out) (given : HasComment f c ws) :
    ws <:+: words out.toList := by
  cases given with
  | file printed =>
    obtain rfl := Except.ok.inj (printed.symm.trans h)
    exact (List.tail_suffix _).isInfix
  | element hn he printed =>
    obtain ⟨t, source, same, stands, rfl⟩ := element_standsIn h hn he
    obtain rfl := Except.ok.inj (same.symm.trans printed)
    rw [Lint.words_lint]
    exact stands.words
  | enumCase hn he hc printed =>
    obtain ⟨ss, sectioned, inside⟩ := words_infix_file h hn he
    obtain ⟨t, same, s, hs, stands⟩ := enumCase_standsIn sectioned hc
    obtain rfl := Except.ok.inj (same.symm.trans printed)
    exact stands.words.trans (inside s hs)
  | constant hn he hc printed =>
    obtain ⟨ss, sectioned, inside⟩ := words_infix_file h hn he
    obtain ⟨t, same, s, hs, stands⟩ := constant_standsIn sectioned hc
    obtain rfl := Except.ok.inj (same.symm.trans printed)
    exact stands.words.trans (inside s hs)
  | property hn he hp printed =>
    obtain ⟨ss, sectioned, inside⟩ := words_infix_file h hn he
    obtain ⟨t, same, ht⟩ := property_standsIn sectioned hp
    obtain rfl := Except.ok.inj (same.symm.trans printed)
    exact inside t ht
  | method hn he hm printed =>
    obtain ⟨ss, sectioned, inside⟩ := words_infix_file h hn he
    obtain ⟨t, same, ht⟩ := method_standsIn sectioned hm
    obtain rfl := Except.ok.inj (same.symm.trans printed)
    exact inside t ht
  | parameter hn he hm hp printed given =>
    obtain ⟨ss, sectioned, inside⟩ := words_infix_file h hn he
    obtain ⟨t, made, ht⟩ := method_standsIn sectioned hm
    obtain ⟨w, same, within⟩ := exists_parameter_infix made hp given
    obtain rfl := Except.ok.inj (same.symm.trans printed)
    exact within.trans (inside t ht)

/-- What a comment is printed for begins with it, and is in the file with the comment from an opening to an end, the
words of the comment between the two and the others behind them.  The comment is read up to that end, and nothing of it
is read as code, if and only if no line of it has the end of a comment in it. -/
theorem comment_contained_iff {c : Comment} {ws : List (List Char)} (h : file {} f = .ok out)
    (given : HasComment f c ws) :
    ∃ code lead inner trail, ws = c.words ++ code ∧ out = lead ++ ("/**" ++ inner ++ "*/" ++ trail) ∧
      words inner.toList = c.inner ∧ code <+: words trail.toList ∧
      (readComment ("/**" ++ inner ++ "*/" ++ trail) = some ("/**" ++ inner ++ "*/", trail) ↔
        ∀ l ∈ c.lines, ¬EndsComment l) := by
  obtain ⟨code, rfl⟩ := given.starts
  obtain ⟨lead, inner, trail, placed⟩ := exists_comment (given.stands h)
  exact ⟨code, lead, inner, trail, rfl, placed⟩

def remarkedMethod : Method where
  name := "find"
  annotations := { comment := .text "Looks up\nand sorts" }
  parameters := ⟨[("ids", { name := "ids", type := "array<int>" })]⟩
  returnType := "array<App\\Row>"

def remarkedInterface : Element where
  name := "Rows"
  form := .interface []
  methods := ⟨[("find", remarkedMethod)]⟩

def filed (e : Element) : SourceFile where
  namespaces := ⟨[(.text "App", { name := "App", elements := ⟨[(.text "E", e)]⟩ })]⟩

theorem comment_contained_method : ∃ lead inner trail,
    file {} (filed remarkedInterface) = .ok (lead ++ ("/**" ++ inner ++ "*/" ++ trail)) ∧
      words inner.toList = ["*", "Looks", "up", "*", "and", "sorts", "*", "@param", "array<int>", "$ids", "*", "@return",
        "array<Row>"].map String.toList ∧
      ["public", "function", "find(array", "$ids):", "array;"].map String.toList <+: words trail.toList ∧
      readComment ("/**" ++ inner ++ "*/" ++ trail) = some ("/**" ++ inner ++ "*/", trail) := by
  let ns : Namespace := { name := "App", elements := ⟨[(.text "E", remarkedInterface)]⟩ }
  let doc := ["Looks up", "and sorts", "@param array<int> $ids", "@return array<Row>"]
  have read : methodDoc ns remarkedMethod = .ok doc := Except.toOption_eq_some.1 (by decide +kernel)
  obtain ⟨s, shown, signed⟩ := Except.exists_of_any (x := method ns true remarkedMethod)
    (p := fun s => words s.toList = (Comment.block doc).words ++
      ["public", "function", "find(array", "$ids):", "array;"].map String.toList) (by decide +kernel)
  obtain ⟨out, printed, -⟩ := Except.exists_of_any (x := file {} (filed remarkedInterface)) (p := fun _ => true)
    (by decide +kernel)
  have given : HasComment (filed remarkedInterface) (.block doc) (words s.toList) :=
    .method List.mem_cons_self List.mem_cons_self List.mem_cons_self shown read (by decide)
  obtain ⟨code, lead, inner, trail, parts, rfl, held, behind, whole⟩ := comment_contained_iff printed given
  rw [List.append_cancel_left ((of_decide_eq_true signed).symm.trans parts)]
  exact ⟨lead, inner, trail, printed, by rw [held]; decide, behind, whole.2 (by decide)⟩

def remarkedFile (comment : String) : SourceFile :=
  filed { name := "A", annotations := { comment := .text comment }, form := .bare .cls }

theorem comment_cut_short :
    (file {} (remarkedFile "a */ b")).toOption =
      some "<?php\n\nnamespace App;\n\n/**\n * a */ b\n */\nclass A\n\x7b\n\x7d\n" ∧
    readComment "/**\n * a */ b\n */\nclass A\n\x7b\n\x7d\n" =
      some ("/**\n * a */", " b\n */\nclass A\n\x7b\n\x7d\n") := by
  decide +kernel

end Print

end PhpScaffold
