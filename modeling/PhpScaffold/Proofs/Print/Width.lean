import PhpScaffold.Proofs.Lint
import PhpScaffold.Proofs.Print.Place

namespace PhpScaffold

namespace Text

theorem size_trimEnd_le (p : Char → Bool) (s : String) : size (trimEnd p s) ≤ size s := by
  rw [trimEnd, size, String.toList_ofList, dropEndWhile_eq]
  exact (List.rdropWhile_prefix p s.toList).sublist.countP_le

theorem trimEnd_append_filled {p : Char → Bool} {t : String} (filled : t ≠ "") (kept : trimEnd p t = t) (s : String) :
    trimEnd p (s ++ t) = s ++ t := by
  rw [trimEnd_append, kept, if_neg filled]

end Text

namespace Print

open Decimal (OneLine)
open Except (bind_eq_ok forall₂_of_mapM)

variable {ns : Namespace} {e : Element} {f : SourceFile} {m : Method} {sig : Signature} {out : String}

theorem signature_cases (start returns : String) (alone : Bool) {parameters : List String} (some : parameters ≠ []) :
    '\n' ∈ (signature start parameters alone returns).text.toList ∨
      (signature start parameters alone returns).wrapped = false ∧
        Text.size (signature start parameters alone returns).text + Text.size unit ≤ width := by
  have given : parameters.isEmpty = false := by simpa using some
  unfold signature
  simp only [given, Bool.not_false, Bool.and_true]
  split
  · obtain ⟨p, r, rfl⟩ := List.exists_cons_of_ne_nil some
    left
    simp [String.intercalate_cons_cons]
  · rename_i fits
    rw [Bool.not_eq_true, Bool.or_eq_false_iff, decide_eq_false_iff_not] at fits
    exact .inr ⟨rfl, Nat.not_lt.1 fits.2⟩

theorem methodHead_cases (h : methodHead ns m = .ok sig) (some : m.parameters.values ≠ []) :
    '\n' ∈ sig.text.toList ∨ sig.wrapped = false ∧ Text.size sig.text + Text.size unit ≤ width := by
  obtain ⟨written, read, h⟩ := bind_eq_ok.1 h
  obtain ⟨returns, -, h⟩ := bind_eq_ok.1 h
  obtain rfl := Except.ok.inj h
  apply signature_cases
  intro none
  have lengths := (forall₂_of_mapM read).length_eq
  rw [List.map_eq_nil_iff.1 none] at lengths
  exact some (List.length_eq_zero_iff.1 lengths)

theorem mem_methodHead (h : methodHead ns m = .ok sig) : '(' ∈ sig.text.toList := by
  obtain ⟨written, -, h⟩ := bind_eq_ok.1 h
  obtain ⟨returns, -, h⟩ := bind_eq_ok.1 h
  obtain rfl := Except.ok.inj h
  unfold headOf signature
  simp only
  split
  · cases written.map Prod.fst <;> simp [String.intercalate_cons_cons]
  · simp

def headLine (bodyless : Bool) (m : Method) (sig : Signature) : String :=
  Text.trimEnd Text.isBlank (unit ++ (sig.text ++ terminator bodyless m))

theorem terminator_cases (bodyless : Bool) (m : Method) : terminator bodyless m = "" ∨ terminator bodyless m = ";" := by
  unfold terminator
  split
  · exact .inr rfl
  · exact .inl rfl

theorem size_headLine_le_iff (bodyless : Bool) (fits : Text.size sig.text + Text.size unit ≤ width) :
    Text.size (headLine bodyless m sig) ≤ width ↔ ¬(terminator bodyless m = ";" ∧ Text.size sig.text = 116) := by
  have shift : Text.size unit = 4 := by decide
  have semicolon : Text.size ";" = 1 := by decide
  rw [shift, width] at fits
  unfold headLine
  obtain none | ends := terminator_cases bodyless m
  · have shorter := Text.size_trimEnd_le Text.isBlank (unit ++ (sig.text ++ terminator bodyless m))
    rw [none] at shorter ⊢
    rw [String.append_empty, Text.size_append, shift] at shorter
    refine iff_of_true ?_ fun ⟨wrong, _⟩ => absurd wrong (by decide)
    rw [width, String.append_empty]
    omega
  · rw [ends, ← String.append_assoc, Text.trimEnd_append_filled (by decide) (by decide), Text.size_append,
      Text.size_append, shift, semicolon, width]
    simp only [true_and]
    omega

theorem shifted_mem_cut_file (h : file {} f = .ok out) (hn : ns ∈ f.namespaces.values) (he : e ∈ ns.elements.values) :
    ∃ ss, sections ns e = .ok ss ∧ ∀ s ∈ ss, ∀ l ∈ Text.cut '\n' s, OneLine l.toList → Text.allBlank l = false →
      Text.trimEnd Text.isBlank (unit ++ l) ∈ Text.cut '\n' out := by
  obtain ⟨t, source, printed, stands, rfl⟩ := element_standsIn h hn he
  obtain ⟨ss, comment, attributes, header, sectioned, -, -, -, rfl⟩ := element_eq_ok printed
  refine ⟨ss, sectioned, fun s hs l hl line solid => ?_⟩
  have filled : l ≠ "" := by
    rintro rfl
    cases solid
  have shifted := Text.mem_cut_block hl line filled
  have whole : OneLine (unit ++ l).toList := by
    rw [String.toList_append, Decimal.oneLine_append]
    exact ⟨by decide, line⟩
  refine Lint.mem_cut_lint (stands.subset ((block_standsIn hs).subset shifted)) whole fun empty => ?_
  rw [Text.trimEnd_eq_empty, Text.allBlank, String.toList_append, List.all_append, Bool.and_eq_true] at empty
  rw [Text.allBlank, empty.2] at solid
  cases solid

theorem head_mem_cut_method {bodyless : Bool} {t : String} (h : method ns bodyless m = .ok t)
    (headed : methodHead ns m = .ok sig) (inline : sig.wrapped = false)
    (line : OneLine (sig.text ++ terminator bodyless m).toList) :
    sig.text ++ terminator bodyless m ∈ Text.cut '\n' t := by
  obtain ⟨doc, sig', lead, tail, -, same, fronted, rfl, ended⟩ := method_eq_ok h
  obtain rfl := Except.ok.inj (same.symm.trans headed)
  rw [← @String.append_assoc sig'.text, Text.mem_cut (Text.not_mem_of_oneLine line (by decide))]
  refine .trans ?_ (.after (ended_header fronted) _)
  obtain rfl | ⟨r, rfl⟩ := ended inline
  · rw [String.append_empty]
    exact .refl _
  · exact .front _ r

theorem headLine_mem_cut_file (h : file {} f = .ok out) (hn : ns ∈ f.namespaces.values) (he : e ∈ ns.elements.values)
    (hm : m ∈ e.methods.values) (headed : methodHead ns m = .ok sig) (inline : sig.wrapped = false)
    (line : OneLine sig.text.toList) : headLine (e.kind = .interface) m sig ∈ Text.cut '\n' out := by
  obtain ⟨ss, sectioned, lines⟩ := shifted_mem_cut_file h hn he
  obtain ⟨t, written, ht⟩ := method_standsIn sectioned hm
  have ended : OneLine (sig.text ++ terminator (e.kind = .interface) m).toList := by
    rw [String.toList_append, Decimal.oneLine_append]
    refine ⟨line, ?_⟩
    obtain same | same := terminator_cases (e.kind = .interface) m <;> rw [same] <;> decide
  refine lines t ht _ (head_mem_cut_method written headed inline ended) ended ?_
  rw [Text.allBlank, List.all_eq_false]
  refine ⟨'(', ?_, by decide⟩
  rw [String.toList_append]
  exact List.mem_append_left _ (mem_methodHead headed)

/-- The signature of each method with parameters that is printed on one line is a line of the file, shifted and ended.
The line is no wider than it may be, unless a semicolon ends it and the signature filled it to the last place. -/
theorem headLine_fits_iff (h : file {} f = .ok out) (hn : ns ∈ f.namespaces.values) (he : e ∈ ns.elements.values)
    (hm : m ∈ e.methods.values) (some : m.parameters.values ≠ []) : ∃ sig, methodHead ns m = .ok sig ∧
      (OneLine sig.text.toList → headLine (e.kind = .interface) m sig ∈ Text.cut '\n' out ∧
        (Text.size (headLine (e.kind = .interface) m sig) ≤ width ↔
          ¬(terminator (e.kind = .interface) m = ";" ∧ Text.size sig.text = 116))) := by
  obtain ⟨ss, sectioned, -⟩ := shifted_mem_cut_file h hn he
  obtain ⟨t, written, -⟩ := method_standsIn sectioned hm
  obtain ⟨doc, sig, lead, tail, -, headed, -⟩ := method_eq_ok written
  refine ⟨sig, headed, fun line => ?_⟩
  obtain wraps | ⟨inline, fits⟩ := methodHead_cases headed some
  · exact absurd wraps (Text.not_mem_of_oneLine line (by decide))
  · exact ⟨headLine_mem_cut_file h hn he hm headed inline line, size_headLine_le_iff _ fits⟩

def wideName (n : Nat) : String := .ofList (List.replicate n 'a')

def wideMethod (n : Nat) : Method := { name := "m", parameters := ⟨[(.text "a", { name := .text (wideName n) })]⟩ }

def wideElement (n : Nat) : Element :=
  { name := "I", methods := ⟨[(.text "m", wideMethod n)]⟩, form := .bare .interface }

def wideNamespace (n : Nat) : Namespace := { name := "App", elements := ⟨[(.text "I", wideElement n)]⟩ }

def wideFile (n : Nat) : SourceFile := { namespaces := ⟨[(.text "App", wideNamespace n)]⟩ }

theorem size_wideName (n : Nat) : Text.size (wideName n) = n := by
  have letter : Text.isMark 'a' = false := by decide
  simp [Text.size, Text.count, wideName, List.countP_replicate, letter]

theorem oneLine_wideName (n : Nat) : OneLine (wideName n).toList := by
  intro c hc
  rw [wideName, String.toList_ofList] at hc
  rw [List.eq_of_mem_replicate hc]
  decide

theorem replace_wideName (n : Nat) : Text.replace '\n' ' ' ("$" ++ wideName n) = "$" ++ wideName n := by
  have stays : ∀ c ∈ ("$" ++ wideName n).toList, (if c = '\n' then ' ' else c) = id c := by
    intro c hc
    rw [if_neg, id]
    rintro rfl
    rw [String.toList_append, List.mem_append] at hc
    obtain front | back := hc
    · exact absurd front (by decide)
    · exact absurd back (Text.not_mem_of_oneLine (oneLine_wideName n) (by decide))
  rw [← String.toList_inj, Text.replace, String.toList_map, List.map_congr_left stays, List.map_id]

theorem methodHead_wideMethod (ns : Namespace) {n : Nat} (fits : n ≤ 96) :
    methodHead ns (wideMethod n) = .ok ⟨"public function m($" ++ wideName n ++ ")", false⟩ := by
  have start : " ".intercalate ["public"] ++ " function " ++ "m" = "public function m" := by decide
  have front : "public function m" ++ "(" = "public function m(" := by decide
  have opened : "public function m(" ++ "$" = "public function m($" := by decide
  have size : Text.size "public function m($" = 19 := by decide
  have close : Text.size ")" = 1 := by decide
  have shift : Text.size unit = 4 := by decide
  have read : (wideMethod n).parameters.values.mapM (parameter ns) = .ok [("$" ++ wideName n, none)] := by
    simp [wideMethod, Roster.values, parameter, writeType?, plainText, remark, word, Value.truthy, full]
  rw [methodHead, read]
  change Except.ok (signature (" ".intercalate ["public"] ++ " function " ++ "m") ["$" ++ wideName n] false "") = _
  rw [start, signature, List.map_singleton, replace_wideName, String.intercalate_singleton, String.append_empty, front,
    ← String.append_assoc, opened, if_neg]
  rw [Text.size_append, Text.size_append, size, close, shift, size_wideName, width, Bool.false_or, Bool.and_eq_true,
    decide_eq_true_eq]
  omega

theorem wide_mem (n : Nat) : wideNamespace n ∈ (wideFile n).namespaces.values ∧
    wideElement n ∈ (wideNamespace n).elements.values ∧ wideMethod n ∈ (wideElement n).methods.values ∧
    (wideMethod n).parameters.values ≠ [] ∧ decide ((wideElement n).kind = .interface) = true :=
  ⟨List.mem_cons_self, List.mem_cons_self, List.mem_cons_self, List.cons_ne_nil _ _, rfl⟩

theorem exists_wideFile : (∃ out, file {} (wideFile 95) = .ok out) ∧ ∃ out, file {} (wideFile 96) = .ok out := by
  have both : (file {} (wideFile 95)).isOk = true ∧ (file {} (wideFile 96)).isOk = true := by decide +kernel
  constructor
  · cases printed : file {} (wideFile 95) with
    | error fault => rw [printed] at both; cases both.1
    | ok out => exact ⟨out, rfl⟩
  · cases printed : file {} (wideFile 96) with
    | error fault => rw [printed] at both; cases both.2
    | ok out => exact ⟨out, rfl⟩

theorem headLine_wideMethod (n : Nat) :
    headLine true (wideMethod n) ⟨"public function m($" ++ wideName n ++ ")", false⟩ =
      "    public function m($" ++ wideName n ++ ");" := by
  have front : unit ++ "public function m($" = "    public function m($" := by decide
  have ends : terminator true (wideMethod n) = ";" := rfl
  have close : ")" ++ ";" = ");" := by decide
  rw [headLine, ends, ← String.append_assoc, Text.trimEnd_append_filled (by decide) (by decide), String.append_assoc,
    String.append_assoc, close, ← String.append_assoc, ← String.append_assoc, front]

theorem size_headLine_wideMethod (n : Nat) : Text.size ("    public function m($" ++ wideName n ++ ");") = n + 25 := by
  have front : Text.size "    public function m($" = 23 := by decide
  have back : Text.size ");" = 2 := by decide
  rw [Text.size_append, Text.size_append, front, back, size_wideName]
  omega

theorem oneLine_wideMethod (n : Nat) : OneLine ("public function m($" ++ wideName n ++ ")").toList := by
  simp +decide [oneLine_wideName]

theorem headLine_fits_at_width : ∃ out, file {} (wideFile 95) = .ok out ∧
    "    public function m($" ++ wideName 95 ++ ");" ∈ Text.cut '\n' out ∧
    Text.size ("    public function m($" ++ wideName 95 ++ ");") = width := by
  obtain ⟨out, printed⟩ := exists_wideFile.1
  obtain ⟨scope, element, method, some, interface⟩ := wide_mem 95
  obtain ⟨sig, headed, lines⟩ := headLine_fits_iff printed scope element method some
  obtain rfl := Except.ok.inj (headed.symm.trans (methodHead_wideMethod _ (by decide)))
  have inside := (lines (oneLine_wideMethod 95)).1
  rw [interface, headLine_wideMethod] at inside
  exact ⟨out, printed, inside, size_headLine_wideMethod 95⟩

theorem headLine_too_wide : ∃ out, file {} (wideFile 96) = .ok out ∧
    ∃ l ∈ Text.cut '\n' out, l = "    public function m($" ++ wideName 96 ++ ");" ∧ Text.size l = 121 ∧
      width < Text.size l := by
  obtain ⟨out, printed⟩ := exists_wideFile.2
  obtain ⟨scope, element, method, some, interface⟩ := wide_mem 96
  have headed := methodHead_wideMethod (wideNamespace 96) (n := 96) (by decide)
  have inside := headLine_mem_cut_file printed scope element method headed rfl (oneLine_wideMethod 96)
  rw [interface, headLine_wideMethod] at inside
  have size := size_headLine_wideMethod 96
  exact ⟨out, printed, _, inside, rfl, size, by rw [size]; decide⟩

end Print

end PhpScaffold
