import PhpScaffold.Command.Registry
import PhpScaffold.Proofs.Import.Capture
import PhpScaffold.Proofs.Print.Content
import PhpScaffold.Proofs.PropertyList
import PhpScaffold.Proofs.Roster

namespace PhpScaffold

namespace Text

def IsLine (s : String) : Prop := ∀ c ∈ s.toList, isLineBreak c = false

instance (s : String) : Decidable (IsLine s) := List.decidableBAll (fun c => isLineBreak c = false) s.toList

variable {s t : String}

theorem IsLine.isPlain (h : IsLine s) : IsPlain s := by
  intro c hc ends
  rw [h c hc] at ends
  cases ends

theorem IsLine.not_mem (h : IsLine s) : '\n' ∉ s.toList := fun inside => absurd (h _ inside) (by decide)

theorem IsLine.of_subset (h : IsLine s) (part : t.toList ⊆ s.toList) : IsLine t := fun c hc => h c (part hc)

@[simp] theorem isLine_append : IsLine (s ++ t) ↔ IsLine s ∧ IsLine t := by
  simp [IsLine, or_imp, forall_and]

theorem isLine_intercalate {between : String} {ts : List String} (line : IsLine between) (h : ∀ t ∈ ts, IsLine t) :
    IsLine (between.intercalate ts) :=
  intercalate_induct (by decide) (fun hs ht => isLine_append.2 ⟨hs, ht⟩) line h

theorem IsLine.trim (h : IsLine s) (p : Char → Bool) : IsLine (trim p s) := by
  refine h.of_subset ?_
  rw [Text.trim, String.toList_ofList]
  exact List.Subset.trans (dropEndWhile_subset p _) (List.dropWhile_suffix p).subset

theorem isGap_of_isLineBreak {c : Char} (h : isLineBreak c) : Name.IsGap c := by
  constructor
  · rw [Bool.eq_false_iff]
    intro tail
    have := Name.toNat_of_isTail tail
    simp only [isLineBreak, Bool.or_eq_true, Bool.and_eq_true, decide_eq_true_eq, beq_iff_eq] at h
    omega
  · rintro rfl
    exact absurd h (by decide)

theorem indent_ending (line : IsLine s) {c : Char} (inside : c ∈ s.toList) (shown : isBlank c = false) :
    indent s = "    " ++ s := by
  have single : cut '\n' s = [s] := by
    rw [cut, List.splitOn_eq_singleton line.not_mem, List.map_singleton, String.ofList_toList]
  have some : allBlank s = false := by
    rw [allBlank, List.all_eq_false]
    exact ⟨c, inside, by simp [shown]⟩
  rw [indent, single, List.map_singleton, some, String.intercalate_singleton]
  rfl

theorem filledLines_ending (line : IsLine (s ++ t)) (kept : trimEnd isBlank t = t) (some : t ≠ "") :
    filledLines (s ++ t) = [s ++ t] := by
  have whole : trimEnd isBlank (s ++ t) = s ++ t := by rw [trimEnd_append, kept, if_neg some]
  have filled : s ++ t ≠ "" := fun empty => some (String.append_eq_empty_iff.1 empty).2
  rw [filledLines_line line.not_mem, whole, filled_cons, if_neg filled, filled_nil]

end Text

namespace PropertyList

open Text (trim trimEnd isBlank)

theorem IsWord.trimEnd_eq {s : String} (h : IsWord s) : trimEnd isBlank s = s := by
  rw [← h.2]
  simp only [trim, trimEnd, Text.trimBoth, String.toList_ofList, Text.dropEndWhile_eq, List.rdropWhile_idempotent]

end PropertyList

namespace Print

open Text (trim trimEnd isBlank filledLines IsLine)
open PropertyList (IsWord)

section

variable (ns : Namespace)

def native (type : String) : String :=
  if '<' ∈ type.toList then trim isBlank (ns.shortenType (.ofList (type.toList.takeWhile (· ≠ '<'))))
  else ns.shortenType type

def parameterCode (e : String × String) : String :=
  " ".intercalate (["public"] ++ (if (native ns e.2).isEmpty then [] else [native ns e.2]) ++ ["$" ++ e.1])

def paramTags (es : List (String × String)) : List String :=
  (es.filter fun e => '<' ∈ e.2.toList).map fun e => "@param " ++ ns.shortenType e.2 ++ " $" ++ e.1

def constructorDoc (es : List (String × String)) : List String :=
  if paramTags ns es = [] then [] else ["/**"] ++ (paramTags ns es).map (" * " ++ ·) ++ [" */"]

def constructorLines (es : List (String × String)) : List String :=
  if es = [] then ["public function __construct()", "\x7b", "\x7d"]
  else constructorDoc ns es ++ ["public function __construct("] ++
    es.map (fun e => "    " ++ parameterCode ns e ++ ",") ++ [") \x7b", "\x7d"]

end

variable {scope : String} {uses : Table String} {elements : Roster Element} {properties : Table String}

def promotedParameter (e : String × String) : Parameter :=
  { name := .text e.1, type := .text e.2, promotion := some {} }

theorem values_carrier (distinct : properties.keys.Nodup) :
    (Command.carrier properties).parameters.values = properties.entries.map promotedParameter := by
  have apart : (properties.entries.map fun e => (Value.text e.1, promotedParameter e)).Pairwise
      fun e f => ¬ Value.same e.1 f.1 := by
    rw [List.pairwise_map]
    have names : properties.entries.Pairwise fun e f => e.1 ≠ f.1 := List.pairwise_map.1 distinct
    exact names.imp fun other => by simpa using other
  show (Roster.ofList (properties.entries.map fun e => (Value.text e.1, promotedParameter e))).values = _
  rw [Roster.values, Roster.entries_ofList apart, List.map_map]
  rfl

theorem paramTags_eq (ns : Namespace) (es : List (String × String)) :
    ((es.map promotedParameter).zip (es.map fun e =>
      (parameterCode ns e, if '<' ∈ e.2.toList then some (ns.shortenType e.2) else none))).filterMap
        (fun (p, w) => w.2.map fun t => "@param " ++ t ++ " $" ++ p.name.display) = paramTags ns es := by
  induction es with
  | nil => rfl
  | cons e r ih =>
    rw [paramTags] at ih ⊢
    rw [List.map_cons, List.map_cons, List.zip_cons_cons, List.filterMap_cons, ih]
    by_cases generic : '<' ∈ e.2.toList <;> simp [generic, promotedParameter]

theorem signature_alone {start : String} {parameters : List String} (some : parameters ≠ []) (returns : String) :
    signature start parameters true returns =
      ⟨"\n".intercalate ([start ++ "("] ++ parameters.map (fun p => Text.indent (p ++ ",")) ++ [")" ++ returns]),
        true⟩ := by
  simp [signature, some]

theorem filledLines_signature_alone {start : String} {parameters : List String} (some : parameters ≠ [])
    (t : String) : filledLines ((signature start parameters true "").text ++ t) =
      filledLines (start ++ "(") ++ parameters.flatMap (fun p => filledLines (Text.indent (p ++ ","))) ++
        filledLines (")" ++ t) := by
  rw [signature_alone some, String.intercalate_append_of_ne_nil (by simp) (by simp), String.intercalate_singleton]
  simp only [String.append_assoc, Text.filledLines_append_break, Text.filledLines_intercalate, List.flatMap_append,
    List.flatMap_singleton, List.flatMap_map]
  rfl

section

variable (aliases : ∀ a ∈ uses.values, Name.IsIdentifier a.toList)

include aliases

theorem writeType_shortenType (type : String) :
    writeType ((Namespace.ofTexts scope uses elements).shortenType type) false =
      ⟨native (.ofTexts scope uses elements) type,
        if '<' ∈ type.toList then some ((Namespace.ofTexts scope uses elements).shortenType type) else none⟩ := by
  have whole : ∀ n ∈ Name.names type, Name.IsWhole ((Namespace.ofTexts scope uses elements).shorten n).toList :=
    fun n hn => Namespace.isWhole_shorten aliases (Name.isWhole_of_mem_names hn)
  obtain ⟨front, generic⟩ := Name.takeWhile_mapNames (c := '<') (by decide) whole
  by_cases given : '<' ∈ type.toList
  · simp only [writeType, native, Namespace.shortenType, List.contains_eq_mem, generic, given, decide_true, if_true,
      Bool.false_eq_true, if_false, front, String.ofList_toList]
  · simp only [writeType, native, Namespace.shortenType, List.contains_eq_mem, generic, given, decide_false,
      Bool.false_eq_true, if_false]

theorem parameter_promoted {e : String × String} (word : IsWord e.2) :
    parameter (.ofTexts scope uses elements) (promotedParameter e) =
      .ok (parameterCode (.ofTexts scope uses elements) e,
        if '<' ∈ e.2.toList then some ((Namespace.ofTexts scope uses elements).shortenType e.2) else none) := by
  have typed := @writeType?_ofTexts scope uses elements e.2 false
  rw [word.2, if_neg (by simpa using word.1)] at typed
  have read : writeType? (.ofTexts scope uses elements) (promotedParameter e).type (promotedParameter e).nullable =
    _ := typed
  rw [show Value.truthy (.bool false) = false from rfl, writeType_shortenType aliases] at read
  simp only [parameter, read]
  show Except.ok ("" ++ " ".intercalate ([] ++ ["public"] ++ _ ++ [String.join [] ++ "$" ++ (Value.text e.1).display]),
    _) = _
  simp [parameterCode, plainText, full]

theorem method_carrier (distinct : properties.keys.Nodup) (words : ∀ e ∈ properties.entries, IsWord e.2) :
    let ns := Namespace.ofTexts scope uses elements
    let doc := docblock (paramTags ns properties.entries)
    let head := signature "public function __construct" (properties.entries.map (parameterCode ns))
      (!properties.entries.isEmpty) ""
    method ns false (Command.carrier properties) =
      .ok (String.join ((if doc.isEmpty then [] else [doc]).map (· ++ "\n")) ++ head.text ++
        (if head.wrapped then " \x7b" else "\n\x7b") ++ "\n" ++ "" ++ "\x7d") := by
  intro ns doc head
  have parameters : (Command.carrier properties).parameters.values.mapM (parameter ns) =
      .ok (properties.entries.map fun e =>
        (parameterCode ns e, if '<' ∈ e.2.toList then some (ns.shortenType e.2) else none)) := by
    rw [values_carrier distinct, List.mapM_map]
    exact Except.mapM_eq_ok fun e he => parameter_promoted aliases (words e he)
  have alone : (Command.carrier properties).parameters.values.any standsAlone = !properties.entries.isEmpty := by
    rw [values_carrier distinct]
    cases properties.entries <;> rfl
  have codes : (properties.entries.map fun e =>
      (parameterCode ns e, if '<' ∈ e.2.toList then some (ns.shortenType e.2) else none)).map Prod.fst =
      properties.entries.map (parameterCode ns) := by
    rw [List.map_map]
    rfl
  have tags := paramTags_eq ns properties.entries
  rw [← values_carrier distinct] at tags
  have comment : commentLines (Command.carrier properties).annotations.comment = .ok [] := rfl
  have returns : writeType? ns (Command.carrier properties).returnType (Command.carrier properties).returnNullable =
      .ok none := rfl
  have start : " ".intercalate (methodModifiers (Command.carrier properties)) ++ " function " ++
      (Command.carrier properties).name.display = "public function __construct" := by
    show " ".intercalate ["public"] ++ " function " ++ (Value.text "__construct").display = _
    decide +kernel
  have lead : header ns (paramTags ns properties.entries) (Command.carrier properties).annotations.attributes =
      .ok (String.join ((if doc.isEmpty then [] else [doc]).map (· ++ "\n"))) := by
    show Except.ok (String.join (((if doc.isEmpty then [] else [doc]) ++ []).map (· ++ "\n"))) = _
    rw [List.append_nil]
  have inside : body (Command.carrier properties).body = .ok "" := rfl
  rw [method]
  simp only [parameters, alone, codes, tags, comment, returns, start, inside, Except.ok_bind, List.nil_append]
  simp only [full, Option.bind_none, Option.toList_none, List.map_nil, List.append_nil, lead, Except.ok_bind]
  rfl

theorem isLine_shortenType {type : String} (line : IsLine type) :
    IsLine ((Namespace.ofTexts scope uses elements).shortenType type) := by
  intro c hc
  cases ends : Text.isLineBreak c with
  | false => rfl
  | true =>
    have whole : ∀ n ∈ Name.names type, Name.IsWhole ((Namespace.ofTexts scope uses elements).shorten n).toList :=
      fun n hn => Namespace.isWhole_shorten aliases (Name.isWhole_of_mem_names hn)
    have given := Name.mem_of_mem_mapNames (Text.isGap_of_isLineBreak ends) whole hc
    rw [line c given] at ends
    cases ends

theorem isLine_parameterCode {e : String × String} (name : IsLine e.1) (type : IsLine e.2) :
    IsLine (parameterCode (.ofTexts scope uses elements) e) := by
  have native : IsLine (native (.ofTexts scope uses elements) e.2) := by
    unfold native
    split
    · refine (isLine_shortenType aliases (type.of_subset ?_)).trim _
      rw [String.toList_ofList]
      exact (List.takeWhile_prefix _).subset
    · exact isLine_shortenType aliases type
  refine Text.isLine_intercalate (by decide) ?_
  split <;> simp +decide [native, name]

theorem filledLines_docblock_paramTags {es : List (String × String)} (words : ∀ e ∈ es, IsWord e.1)
    (lines : ∀ e ∈ es, IsLine e.1 ∧ IsLine e.2) :
    filledLines (docblock (paramTags (.ofTexts scope uses elements) es)) =
      constructorDoc (.ofTexts scope uses elements) es := by
  have tag : ∀ t ∈ paramTags (.ofTexts scope uses elements) es, filledLines (" * " ++ t) = [" * " ++ t] := by
    intro t ht
    obtain ⟨e, he, rfl⟩ := List.mem_map.1 ht
    have given := List.mem_of_mem_filter he
    obtain ⟨name, type⟩ := lines e given
    rw [← String.append_assoc]
    refine Text.filledLines_ending ?_ (words e given).trimEnd_eq (words e given).1
    simp +decide [name, isLine_shortenType aliases type]
  rw [Template.filledLines_docblock, constructorDoc, List.flatMap_congr tag, List.map_eq_flatMap]
  simp only [List.isEmpty_iff]

theorem filledLines_indent_parameter {e : String × String} (name : IsLine e.1) (type : IsLine e.2) :
    filledLines (Text.indent (parameterCode (.ofTexts scope uses elements) e ++ ",")) =
      ["    " ++ parameterCode (.ofTexts scope uses elements) e ++ ","] := by
  have line : IsLine (parameterCode (.ofTexts scope uses elements) e ++ ",") :=
    Text.isLine_append.2 ⟨isLine_parameterCode aliases name type, by decide⟩
  rw [Text.indent_ending line (c := ',') (by simp) (by decide), ← String.append_assoc]
  refine Text.filledLines_ending ?_ (by decide +kernel) (by decide)
  rw [String.append_assoc, Text.isLine_append]
  exact ⟨by decide, line⟩

theorem filledLines_method_carrier (distinct : properties.keys.Nodup)
    (words : ∀ e ∈ properties.entries, IsWord e.1 ∧ IsWord e.2)
    (lines : ∀ e ∈ properties.entries, IsLine e.1 ∧ IsLine e.2) :
    ∃ text, method (.ofTexts scope uses elements) false (Command.carrier properties) = .ok text ∧
      filledLines text = constructorLines (.ofTexts scope uses elements) properties.entries := by
  refine ⟨_, method_carrier aliases distinct fun e he => (words e he).2, ?_⟩
  have front (t : String) : filledLines (String.join ((if (docblock (paramTags (.ofTexts scope uses elements)
      properties.entries)).isEmpty then [] else [docblock (paramTags (.ofTexts scope uses elements)
      properties.entries)]).map (· ++ "\n")) ++ t) =
      constructorDoc (.ofTexts scope uses elements) properties.entries ++ filledLines t := by
    rw [Text.filledLines_join (f := fun t => t) fun _ => rfl,
      ← filledLines_docblock_paramTags aliases (fun e he => (words e he).1) lines]
    split <;> simp_all
  simp only [String.append_assoc] at front ⊢
  rw [front, constructorLines]
  cases whole : properties.entries with
  | nil =>
    have inline : signature "public function __construct" [] false "" = ⟨"public function __construct()", false⟩ := by
      decide +kernel
    rw [List.map_nil, List.isEmpty_nil, Bool.not_true, inline, if_pos rfl]
    show [] ++ filledLines ("public function __construct()" ++ ("\n\x7b" ++ ("\n" ++ ("" ++ "\x7d")))) = _
    decide +kernel
  | cons e r =>
    have some : properties.entries ≠ [] := whole ▸ List.cons_ne_nil e r
    have alone : (!properties.entries.isEmpty) = true := by simpa using some
    have each : (properties.entries.map (parameterCode (.ofTexts scope uses elements))).flatMap
        (fun p => filledLines (Text.indent (p ++ ","))) =
        properties.entries.map fun e => "    " ++ parameterCode (.ofTexts scope uses elements) e ++ "," := by
      rw [List.flatMap_map, List.flatMap_congr fun e he =>
        filledLines_indent_parameter aliases (lines e he).1 (lines e he).2, List.map_eq_flatMap]
    have given : properties.entries.map (parameterCode (.ofTexts scope uses elements)) ≠ [] := by simpa using some
    have wrapped (returns : String) : (signature "public function __construct"
        (properties.entries.map (parameterCode (.ofTexts scope uses elements))) true returns).wrapped = true := by
      rw [signature_alone given]
    have start : filledLines ("public function __construct" ++ "(") = ["public function __construct("] := by
      decide +kernel
    have ending : filledLines (")" ++ (" \x7b" ++ ("\n" ++ ("" ++ "\x7d")))) = [") \x7b", "\x7d"] := by
      decide +kernel
    rw [← whole, if_neg some, alone, wrapped, if_pos rfl, filledLines_signature_alone given, each, start, ending]
    simp only [List.append_assoc]

end

end Print

end PhpScaffold
