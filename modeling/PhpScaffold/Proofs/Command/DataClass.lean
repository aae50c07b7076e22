import PhpScaffold.Proofs.Blueprint.Twice
import PhpScaffold.Proofs.Command.Shape
import PhpScaffold.Proofs.Print.Constructor

namespace PhpScaffold

open Text (IsLine IsPlain filledLines trimEnd isBlank)

namespace Name

variable {name : String}

theorem IsWhole.isLine (h : IsWhole name.toList) : IsLine name := by
  intro c hc
  cases ends : Text.isLineBreak c with
  | false => rfl
  | true => exact absurd hc (h.not_mem (Text.isGap_of_isLineBreak ends))

theorem isLine_parts (h : IsLine name) : IsLine (scope name) ∧ IsLine (short name) := by
  obtain ⟨⟨m, n, inner, whole, -, -, cut⟩, -⟩ := parts name
  have within : inner ⊆ name.toList := by
    rw [whole]
    exact List.Subset.trans (List.subset_append_right _ _) (List.subset_append_left _ _)
  obtain cut | ⟨empty, cut⟩ := cut
  · rw [cut] at within
    obtain ⟨front, back⟩ := List.append_subset.1 within
    exact ⟨h.of_subset front, h.of_subset (List.cons_subset.1 back).2⟩
  · rw [cut] at within
    exact ⟨empty ▸ by decide, h.of_subset within⟩

end Name

namespace Blueprint.Uses

variable {n : String} {e : Element} {uses : Table String}

theorem mem_dependencies (h : Uses n e uses) {k : String} (hk : k ∈ uses.keys) : k ∈ e.dependencies := by
  rw [h.keys] at hk
  exact List.mem_of_mem_filter hk

theorem isIdentifier (h : Uses n e uses) : ∀ a ∈ uses.values, Name.IsIdentifier a.toList := by
  intro a ha
  obtain ⟨u, hu, rfl⟩ := List.mem_map.1 ha
  have found := h.mem_dependencies (List.mem_map_of_mem hu)
  exact Namespace.isIdentifier_of_spelling (Element.isWhole_of_mem_dependencies found)
    (Element.relative_of_mem_dependencies found).1 (h.spelled u hu)

theorem isLine (h : Uses n e uses) : ∀ u ∈ uses.entries, IsLine u.1 ∧ IsLine u.2 := by
  intro u hu
  have found := h.mem_dependencies (List.mem_map_of_mem hu)
  exact ⟨(Element.isWhole_of_mem_dependencies found).isLine,
    (h.isIdentifier u.2 (List.mem_map_of_mem hu)).isWhole.isLine⟩

theorem isLine_useStatements (h : Uses n e uses) (scope : String) (elements : Roster Element) :
    ∀ u ∈ (Namespace.ofTexts scope uses elements).useStatements, IsLine u := by
  rw [Namespace.useStatements_ofTexts, List.forall_mem_map]
  intro i hi
  obtain ⟨entry, -⟩ := (Namespace.mem_imports_ofTexts scope uses elements).1 hi
  obtain ⟨name, aliasName⟩ := h.isLine _ entry
  unfold Import.text
  split
  · exact name
  · simpa +decide using ⟨name, aliasName⟩

theorem hasPlainNames (h : Uses n e uses) {scope : String} (line : IsLine scope) (elements : Roster Element) :
    (Namespace.ofTexts scope uses elements).HasPlainNames where
  name := line.isPlain
  uses := by
    refine List.forall_mem_map.2 fun u hu => ?_
    obtain ⟨name, aliasName⟩ := h.isLine u hu
    exact ⟨name.isPlain, aliasName.isPlain⟩

end Blueprint.Uses

namespace Print

theorem file_single {ns : Namespace} (plain : ns.IsPlain) (strictTypes scope : Value) :
    ∃ out, ∃ s : ScopeLines ns, file {} { strictTypes, namespaces := ⟨[(scope, ns)]⟩ } = .ok out ∧
      filledLines out =
        ["<?php"] ++ (if strictTypes.truthy then ["declare(strict_types=1);"] else []) ++ s.lines := by
  obtain ⟨bindings, read, s, rfl, single, t, same⟩ := scopeBindings_yields plain
  have laid : IsPlain (Template.fileText [] strictTypes [s]) :=
    Template.isPlain_fileText (by simp) (List.forall_mem_singleton.2 single)
  refine ⟨Lint.lint (Template.fileText [] strictTypes [s]), t, ?_, ?_⟩
  · have bound : [ns].mapM (scopeBindings (.ok Template.elementLayout)) = .ok ([s].map Template.Scope.value) := by
      rw [List.mapM_cons, read]
      rfl
    have commented : commentLines .null = .ok [] := rfl
    have values : (⟨[(scope, ns)]⟩ : Roster Namespace).values = [ns] := rfl
    simp only [file, values, bound, commented, Except.ok_bind, Template.fileLayout, Template.fill_file]
    rfl
  · rw [Lint.filledLines_lint_of_isPlain laid, Template.filledLines_fileText, List.flatMap_singleton, same]
    rfl

end Print

namespace Command

variable {properties : Table String} {name text : String} {strictTypes : Bool} {params : Params}

def dataElement (properties : Table String) (short : String) : Element := dataClass properties (.bare .cls short)

theorem methods_dataElement (short : String) :
    (dataElement properties short).methods.values = [carrier properties] := rfl

theorem isPlain_unannotated : ({} : Annotations).IsPlain := ⟨by simp, trivial⟩

theorem isPlain_dataElement (distinct : properties.keys.Nodup)
    (lines : ∀ e ∈ properties.entries, IsLine e.1 ∧ IsLine e.2) {short : String} (line : IsLine short) :
    (dataElement properties short).IsPlain where
  name := line.isPlain
  annotations := isPlain_unannotated
  names := fun n hn => by cases hn
  cases := fun c hc => by cases hc
  constants := fun c hc => by cases hc
  properties := fun p hp => by cases hp
  methods := by
    rw [methods_dataElement]
    refine List.forall_mem_singleton.2 ⟨show IsPlain "__construct" by decide, isPlain_unannotated, ?_, trivial, trivial⟩
    rw [Print.values_carrier distinct]
    refine List.forall_mem_map.2 fun e he => ?_
    obtain ⟨name, type⟩ := lines e he
    exact ⟨name.isPlain, isPlain_unannotated, type.isPlain, fun v hv => by cases hv⟩

theorem elementHeader_dataElement (ns : Namespace) (short : String) :
    Print.elementHeader ns (dataElement properties short) = .ok ("final readonly class " ++ short) := by
  have strung := Print.strung_map_text ["final", "readonly", "class", short]
  show (do return " ".intercalate (← Print.strung [.text "final", .text "readonly", .text "class", .text short]) :
    Except Fault String) = _
  rw [show [Value.text "final", .text "readonly", .text "class", .text short] =
    ["final", "readonly", "class", short].map .text from rfl, strung]
  show Except.ok (" ".intercalate ["final", "readonly", "class", short]) = _
  simp [← String.toList_inj]

def classLines (ns : Namespace) (short : String) (es : List (String × String)) : List String :=
  [trimEnd isBlank ("final readonly class " ++ short), "\x7b"] ++
    (Print.constructorLines ns es).map ("    " ++ ·) ++ ["\x7d"]

section

variable {scope short : String} {uses : Table String} {elements : Roster Element}

theorem lines_dataElement (aliases : ∀ a ∈ uses.values, Name.IsIdentifier a.toList) (distinct : properties.keys.Nodup)
    (words : ∀ e ∈ properties.entries, PropertyList.IsWord e.1 ∧ PropertyList.IsWord e.2)
    (lines : ∀ e ∈ properties.entries, IsLine e.1 ∧ IsLine e.2) (line : IsLine short)
    (p : Print.Parts (.ofTexts scope uses elements) (dataElement properties short)) :
    p.lines = classLines (.ofTexts scope uses elements) short properties.entries := by
  obtain ⟨text, printed, written⟩ :
      ∃ text, Print.method (.ofTexts scope uses elements) false (carrier properties) = .ok text ∧
        filledLines text = Print.constructorLines (.ofTexts scope uses elements) properties.entries :=
    Print.filledLines_method_carrier aliases distinct words lines
  obtain ⟨comment, attributes, header, traits, cases, constants, parts, methods, commented, attributed, headed, used,
    listed, fixed, held, defined⟩ := p
  obtain rfl : comment = [] := (Except.ok.inj commented).symm
  obtain rfl := List.forall₂_nil_left_iff.1 attributed
  obtain rfl := List.forall₂_nil_left_iff.1 used
  obtain rfl := List.forall₂_nil_left_iff.1 listed
  obtain rfl := List.forall₂_nil_left_iff.1 fixed
  obtain rfl := List.forall₂_nil_left_iff.1 held
  obtain rfl : methods = [text] := by
    rw [methods_dataElement] at defined
    obtain ⟨t, ts, made, rest, rfl⟩ := List.forall₂_cons_left_iff.1 defined
    obtain rfl := List.forall₂_nil_left_iff.1 rest
    rw [show t = text from Except.ok.inj (made.symm.trans printed)]
  obtain rfl : header = "final readonly class " ++ short :=
    Except.ok.inj (headed.symm.trans (elementHeader_dataElement _ short))
  have single : filledLines ("final readonly class " ++ short) =
      [trimEnd isBlank ("final readonly class " ++ short)] := by
    have whole : IsLine ("final readonly class " ++ short) := Text.isLine_append.2 ⟨by decide, line⟩
    have lead : trimEnd isBlank "final readonly class " = "final readonly class" := by decide +kernel
    have some : trimEnd isBlank ("final readonly class " ++ short) ≠ "" := by
      rw [Text.trimEnd_append, lead]
      split <;> simp
    rw [Text.filledLines_line whole.not_mem, Text.filled_cons, if_neg some, Text.filled_nil]
  have uncommented : filledLines (Print.docblock []) = [] := Text.filledLines_empty
  have sections : Print.gather [] = [] := rfl
  rw [Print.Parts.lines, Print.Parts.sections, uncommented, sections, single]
  simp only [List.flatMap_nil, List.flatMap_cons, List.nil_append, List.append_nil, written]
  rfl

end

def fileLines (strictTypes : Bool) (name : String) (ns : Namespace) (es : List (String × String)) : List String :=
  ["<?php"] ++ (if strictTypes then ["declare(strict_types=1);"] else []) ++
    (if Name.scope name = "" then [] else ["namespace " ++ Name.scope name ++ ";"]) ++
    ns.useStatements.map (fun u => "use " ++ u ++ ";") ++ classLines ns (Name.short name) es

theorem createData_option (params : Params) : createData.option params "properties" =
    match params.get? "properties" with
    | none | some .null => .ok (.text defaultProperties)
    | some v => .ok v := rfl

theorem createData_handle (named : params.get? "fully-qualified-name" = some (.text name)) (filled : name ≠ "")
    (listed : createData.option params "properties" = .ok (.text text)) :
    createData.handle params = collect ([⟨.cls, name, dataClass (PropertyList.parse text)⟩].map Piece.draft) := by
  have drafted : dataBlueprint name text = Piece.draft ⟨.cls, name, dataClass (PropertyList.parse text)⟩ := rfl
  rw [createData_option] at listed
  rw [List.map_singleton, ← drafted]
  show collect [argument params "fully-qualified-name" >>= _] = _
  rw [argument_eq_ok named filled, Except.ok_bind]
  split at listed <;> rename_i given <;> rw [given]
  · obtain rfl : defaultProperties = text := Value.text.inj (Except.ok.inj listed)
    rfl
  · obtain rfl : defaultProperties = text := Value.text.inj (Except.ok.inj listed)
    rfl
  · obtain rfl := Except.ok.inj listed
    rfl

theorem fine_dataClass (name : String) {properties : Table String} (distinct : properties.keys.Nodup) :
    (⟨.cls, name, dataClass properties⟩ : Piece).Fine := by
  refine ⟨⟨_, Element.harvest_of_texts ?_⟩, fun _ => ⟨rfl, rfl⟩⟩
  have references : (dataClass properties (Blueprint.probe .cls)).references =
      (carrier properties).references ++ [] ++ [] ++ [] := rfl
  rw [references, List.append_nil, List.append_nil, List.append_nil, Method.references,
    Print.values_carrier distinct]
  have bare : (properties.entries.map Print.promotedParameter).flatMap (fun p => p.annotations.references) = [] := by
    rw [List.flatMap_map]
    exact List.flatMap_eq_nil_iff.2 fun _ _ => rfl
  rw [bare, List.append_nil]
  refine List.forall_mem_append.2 ⟨List.forall_mem_append.2 ⟨?_, List.forall_mem_singleton.2 (.inl rfl)⟩, ?_⟩
  · rw [List.map_map]
    exact List.forall_mem_map.2 fun e _ => .inr ⟨e.2, rfl⟩
  · exact fun v hv => by cases hv

def dataNamespace (properties : Table String) (name : String) (uses : Table String) : Namespace :=
  .ofTexts (Name.scope name) uses ⟨[(.text (Name.short name), dataElement properties (Name.short name))]⟩

theorem lines_dataNamespace {uses : Table String}
    (used : Blueprint.Uses name (dataClass properties (Blueprint.probe .cls)) uses) (distinct : properties.keys.Nodup)
    (words : ∀ e ∈ properties.entries, PropertyList.IsWord e.1 ∧ PropertyList.IsWord e.2)
    (line : IsLine name) (lines : ∀ e ∈ properties.entries, IsLine e.1 ∧ IsLine e.2)
    (s : Print.ScopeLines (dataNamespace properties name uses)) :
    s.lines = (if Name.scope name = "" then [] else ["namespace " ++ Name.scope name ++ ";"]) ++
      (dataNamespace properties name uses).useStatements.map (fun u => "use " ++ u ++ ";") ++
      classLines (dataNamespace properties name uses) (Name.short name) properties.entries := by
  obtain ⟨front, back⟩ := Name.isLine_parts line
  have body : s.elements = [classLines (dataNamespace properties name uses) (Name.short name) properties.entries] := by
    obtain ⟨ls, rest, ⟨p, written⟩, none, same⟩ := List.forall₂_cons_left_iff.1 s.elements_eq
    obtain rfl := List.forall₂_nil_left_iff.1 none
    rw [same, written]
    exact congrArg (fun ls => [ls]) (lines_dataElement used.isIdentifier distinct words lines back p)
  have ended {s : String} (line : IsLine s) : filledLines (s ++ ";") = [s ++ ";"] :=
    Text.filledLines_ending (Text.isLine_append.2 ⟨line, by decide⟩) (by decide +kernel) (by decide)
  have uses : ∀ u ∈ (dataNamespace properties name uses).useStatements,
      filledLines ("use " ++ u ++ ";") = ["use " ++ u ++ ";"] := fun u hu =>
    ended (Text.isLine_append.2 ⟨by decide, used.isLine_useStatements _ _ u hu⟩)
  have heading := ended (Text.isLine_append.2 ⟨show IsLine "namespace " by decide, front⟩)
  rw [Print.ScopeLines.lines, body, List.flatMap_congr uses, ← List.map_eq_flatMap, List.flatten_singleton]
  simp only [dataNamespace, Namespace.ofTexts, Value.display_text, heading]
  by_cases none : Name.scope name = "" <;> simp [none, Value.truthy]

theorem shapedFile_dataClass (strictTypes : Bool) (name : String) (uses : Table String) (properties : Table String) :
    Blueprint.shapedFile strictTypes name uses (dataClass properties (.bare .cls (Name.short name))) =
      { strictTypes, namespaces := ⟨[(Name.scope name, dataNamespace properties name uses)]⟩ } := rfl

theorem prints_dataNamespace {uses : Table String}
    (used : Blueprint.Uses name (dataClass properties (Blueprint.probe .cls)) uses) (distinct : properties.keys.Nodup)
    (words : ∀ e ∈ properties.entries, PropertyList.IsWord e.1 ∧ PropertyList.IsWord e.2)
    (line : IsLine name) (lines : ∀ e ∈ properties.entries, IsLine e.1 ∧ IsLine e.2) (strictTypes : Bool) :
    ∃ out, Print.file {} { strictTypes, namespaces := ⟨[(Name.scope name, dataNamespace properties name uses)]⟩ } =
        .ok out ∧
      filledLines out = fileLines strictTypes name (dataNamespace properties name uses) properties.entries := by
  obtain ⟨front, back⟩ := Name.isLine_parts line
  have plain : (dataNamespace properties name uses).IsPlain :=
    { used.hasPlainNames front _ with
      elements := List.forall_mem_singleton.2 (isPlain_dataElement distinct lines back) }
  obtain ⟨out, s, printed, written⟩ := Print.file_single plain strictTypes (Name.scope name)
  refine ⟨out, printed, ?_⟩
  rw [written, lines_dataNamespace used distinct words line lines s, fileLines]
  simp only [List.append_assoc]
  rfl

/-- From a list of properties to the lines of its class. -/
theorem createData_prints (named : params.get? "fully-qualified-name" = some (.text name)) (filled : name ≠ "")
    (listed : createData.option params "properties" = .ok (.text text)) (line : IsLine name)
    (lines : ∀ e ∈ (PropertyList.parse text).entries, IsLine e.1 ∧ IsLine e.2) (strictTypes : Bool) :
    ∃ events project a ns out, createData.handle params = (events, .ok project) ∧
      (project.build strictTypes).result = .ok [a] ∧ a.name = name ∧ a.file.namespaces.values = [ns] ∧
      Print.file {} a.file = .ok out ∧
      filledLines out = fileLines strictTypes name ns (PropertyList.parse text).entries := by
  have distinct := PropertyList.nodup_keys_parse text
  have words := PropertyList.isWord_parse text
  obtain ⟨events, project, artifacts, collected, built, made⟩ :=
    collect_pieces (List.forall_mem_singleton.2 (fine_dataClass name distinct)) strictTypes
  obtain ⟨a, rest, ⟨called, -, uses, file, used⟩, none, rfl⟩ := List.forall₂_cons_left_iff.1 made
  obtain rfl := List.forall₂_nil_left_iff.1 none
  obtain ⟨out, printed, written⟩ := prints_dataNamespace used distinct words line lines strictTypes
  refine ⟨events, project, a, dataNamespace (PropertyList.parse text) name uses, out,
    (createData_handle named filled listed).trans collected, built, called, ?_, ?_, written⟩
  · rw [file, shapedFile_dataClass]
    exact List.map_singleton
  · rw [file, shapedFile_dataClass, printed]

theorem createData_prints_order :
    let params : Params := ⟨[("fully-qualified-name", "App\\Data\\Order"),
      ("properties", "id: int, items: array<int, App\\Item>")]⟩
    (∀ e ∈ (PropertyList.parse "id: int, items: array<int, App\\Item>").entries, IsLine e.1 ∧ IsLine e.2) ∧
      ∃ events project a ns out, createData.handle params = (events, .ok project) ∧
        (project.build true).result = .ok [a] ∧ a.name = "App\\Data\\Order" ∧ a.file.namespaces.values = [ns] ∧
        Print.file {} a.file = .ok out ∧ filledLines out = fileLines true "App\\Data\\Order" ns
          [("id", "int"), ("items", "array<int, App\\Item>")] := by
  intro params
  have found : (PropertyList.parse "id: int, items: array<int, App\\Item>").entries =
      [("id", "int"), ("items", "array<int, App\\Item>")] := by
    decide +kernel
  have lines : ∀ e ∈ (PropertyList.parse "id: int, items: array<int, App\\Item>").entries,
      IsLine e.1 ∧ IsLine e.2 := by
    rw [found]
    decide
  refine ⟨lines, ?_⟩
  rw [← found]
  exact createData_prints rfl (by decide) rfl (by decide) lines true

end Command

end PhpScaffold
