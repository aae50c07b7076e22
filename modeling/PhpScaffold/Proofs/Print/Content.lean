import PhpScaffold.Proofs.Print.Plain
import PhpScaffold.Proofs.Template.Lines

namespace PhpScaffold

open Text (IsPlain ArePlain filledLines)

namespace Print

variable {ns : Namespace} {e : Element}

/-- The texts that an element is printed from, with one text for each attribute and each member. -/
structure Parts (ns : Namespace) (e : Element) where
  comment : List String
  attributes : List String
  header : String
  traits : List String
  cases : List String
  constants : List String
  properties : List String
  methods : List String
  comment_eq : commentLines e.annotations.comment = .ok comment
  attributes_eq : e.annotations.attributes.Forall₂ (fun a t => attr ns a = .ok t) attributes
  header_eq : elementHeader ns e = .ok header
  traits_eq :
    e.traits.Forall₂ (fun n t => ∃ short, ns.shortName n = .ok (.text short) ∧ t = "use " ++ short ++ ";") traits
  cases_eq : e.cases.Forall₂ (fun c t => enumCase ns c = .ok t) cases
  constants_eq : e.constants.values.Forall₂ (fun c t => constant ns c = .ok t) constants
  properties_eq : e.properties.Forall₂ (fun p t => property ns p = .ok t) properties
  methods_eq : e.methods.values.Forall₂ (fun m t => method ns (e.kind = .interface) m = .ok t) methods

namespace Parts

def sections (p : Parts ns e) : List String :=
  gather p.traits ++ gather p.cases ++ gather p.constants ++ p.properties ++ p.methods

def lines (p : Parts ns e) : List String :=
  filledLines (docblock p.comment) ++ p.attributes.flatMap filledLines ++ filledLines p.header ++ ["\x7b"] ++
    p.sections.flatMap (fun s => (filledLines s).map ("    " ++ ·)) ++ ["\x7d"]

end Parts

structure ScopeLines (ns : Namespace) where
  elements : List (List String)
  elements_eq : ns.elements.values.Forall₂ (fun e ls => ∃ p : Parts ns e, ls = p.lines) elements

def ScopeLines.lines (s : ScopeLines ns) : List String :=
  (if ns.name.truthy then filledLines ("namespace " ++ ns.name.display ++ ";") else []) ++
    ns.useStatements.flatMap (fun u => filledLines ("use " ++ u ++ ";")) ++ s.elements.flatten

theorem trait_yields (h : ns.HasPlainNames) {name : Value} (plain : name.IsPlain) :
    (do return "use " ++ (← ns.shortName name).display ++ ";" : Except Fault String).Yields fun t =>
      (∃ short, ns.shortName name = .ok (.text short) ∧ t = "use " ++ short ++ ";") ∧ IsPlain t := by
  obtain ⟨n, rfl, named⟩ := plain.exists_text
  rw [h.shortName, Except.ok_bind]
  exact Except.yields_ok.2 ⟨⟨_, rfl, by simp⟩, by simp +decide [h.shorten named]⟩

theorem arePlain_gather {ts : List String} (plain : ArePlain ts) : ArePlain (gather ts) := by
  rw [gather]
  split <;> simp +decide [plain]

theorem element_yields (h : ns.HasPlainNames) (plain : e.IsPlain) :
    (element (.ok Template.elementLayout) ns e).Yields fun s => IsPlain s ∧ ∃ p : Parts ns e, filledLines s = p.lines := by
  obtain ⟨comment, commented, front⟩ := commentLines_yields plain.annotations.comment
  obtain ⟨attributes, attributed, lines⟩ :=
    Except.Yields.mapM fun a ha => (attr_yields h (plain.annotations.attributes a ha)).self
  obtain ⟨header, headed, head⟩ := elementHeader_yields h plain
  obtain ⟨traits, used, uses⟩ :=
    Except.Yields.mapM fun n hn => trait_yields h (plain.names n (List.mem_append_right _ hn))
  obtain ⟨cases, listed, cs⟩ := Except.Yields.mapM fun c hc => (enumCase_yields h (plain.cases c hc)).self
  obtain ⟨constants, fixed, ks⟩ := Except.Yields.mapM fun c hc => (constant_yields h (plain.constants c hc)).self
  obtain ⟨properties, held, ps⟩ := Except.Yields.mapM fun p hp => (property_yields h (plain.properties p hp)).self
  obtain ⟨methods, defined, ms⟩ := Except.Yields.mapM fun m hm =>
    (method_yields h (e.kind = .interface) (plain.methods m hm)).self
  -- every part is there; laying the parts out as plain texts keeps their filled lines
  let p : Parts ns e := {
    comment, attributes, header, traits, cases, constants, properties, methods
    comment_eq := commented
    attributes_eq := lines.imp fun _ _ => And.left
    header_eq := headed
    traits_eq := uses.imp fun _ _ => And.left
    cases_eq := cs.imp fun _ _ => And.left
    constants_eq := ks.imp fun _ _ => And.left
    properties_eq := ps.imp fun _ _ => And.left
    methods_eq := ms.imp fun _ _ => And.left }
  have printed : sections ns e = .ok p.sections := by
    rw [sections, used, Except.ok_bind, listed, Except.ok_bind, fixed, Except.ok_bind, held, Except.ok_bind, defined]
    rfl
  have each {α : Type} {R : α → String → Prop} {l : List α} {ts : List String}
      (kinds : l.Forall₂ (fun a t => R a t ∧ IsPlain t) ts) : ArePlain ts :=
    Except.forall_of_forall₂ (fun _ _ => And.right) kinds
  have sectioned : ArePlain p.sections := by
    simp only [Parts.sections, Text.arePlain_append]
    exact ⟨⟨⟨⟨arePlain_gather (each uses), arePlain_gather (each cs)⟩, arePlain_gather (each ks)⟩, each ps⟩, each ms⟩
  refine ⟨Template.elementText (docblock comment) attributes header p.sections, ?_, ?_, p, ?_⟩
  · rw [element, printed, Except.ok_bind, Except.ok_bind, commented, Except.ok_bind, attributed, Except.ok_bind, headed,
      Except.ok_bind]
    exact Template.fill_element _ _ _ _
  · exact Template.isPlain_elementText (isPlain_docblock front) (each lines) head
  · exact Template.filledLines_elementText sectioned

theorem arePlain_useStatements (h : ns.HasPlainNames) : ArePlain ns.useStatements := by
  intro u hu
  obtain ⟨⟨name, aliasName⟩, entry, written⟩ := List.mem_filterMap.1 hu
  obtain ⟨plain, shown⟩ := h.uses _ entry
  simp only [Namespace.useStatement?] at written
  split at written
  · split at written
    · cases written
    · exact Option.some.inj written ▸ plain
  · refine Option.some.inj written ▸ ?_
    simp +decide only [Text.isPlain_append, plain, shown.display]

theorem scopeBindings_yields (plain : ns.IsPlain) :
    (scopeBindings (.ok Template.elementLayout) ns).Yields fun v =>
      ∃ s : Template.Scope, v = s.value ∧ s.IsPlain ∧ ∃ t : ScopeLines ns, s.lines = t.lines := by
  obtain ⟨elements, read, kinds⟩ := Except.Yields.mapM fun e he =>
    element_yields plain.toHasPlainNames (plain.elements e he)
  obtain ⟨name, named, shown⟩ := plain.name.exists_text
  let t : ScopeLines ns := {
    elements := elements.map filledLines
    elements_eq := List.forall₂_map_right_iff.2 (kinds.imp fun _ _ => And.right) }
  refine ⟨_, ?_, ⟨ns.name, ns.useStatements, elements⟩, rfl, ⟨?_, ?_, ?_⟩, t, ?_⟩
  · rw [scopeBindings, read, Except.ok_bind]
    rfl
  · rw [named]
    exact shown
  · exact arePlain_useStatements plain.toHasPlainNames
  · exact Except.forall_of_forall₂ (fun _ _ => And.left) kinds
  · simp [Template.Scope.lines, ScopeLines.lines, t, List.flatMap_def]

theorem exists_map_of_forall₂ {α β γ : Type} {g : γ → β} {R : α → γ → Prop} {l : List α} {bs : List β}
    (h : l.Forall₂ (fun a b => ∃ c, b = g c ∧ R a c) bs) : ∃ cs, bs = cs.map g ∧ l.Forall₂ R cs := by
  induction h with
  | nil => exact ⟨[], rfl, .nil⟩
  | cons first _ ih =>
    obtain ⟨c, rfl, kind⟩ := first
    obtain ⟨cs, rfl, kinds⟩ := ih
    exact ⟨c :: cs, rfl, .cons kind kinds⟩

theorem file_filledLines (f : SourceFile) (plain : f.IsPlain) :
    ∃ out comment blocks, file {} f = .ok out ∧ commentLines f.comment = .ok comment ∧
      f.namespaces.values.Forall₂ (fun ns ls => ∃ s : ScopeLines ns, ls = s.lines) blocks ∧
      filledLines out = ["<?php"] ++ filledLines (docblock comment) ++
        (if f.strictTypes.truthy then ["declare(strict_types=1);"] else []) ++ blocks.flatten := by
  obtain ⟨comment, commented, front⟩ := commentLines_yields plain.comment
  obtain ⟨bindings, read, bound⟩ := Except.Yields.mapM fun ns hns => scopeBindings_yields (plain.namespaces ns hns)
  obtain ⟨scopes, rfl, kinds⟩ := exists_map_of_forall₂ bound
  have each : ∀ s ∈ scopes, s.IsPlain := Except.forall_of_forall₂ (fun _ _ => And.left) kinds
  have laid : IsPlain (Template.fileText comment f.strictTypes scopes) := Template.isPlain_fileText front each
  refine ⟨Lint.lint (Template.fileText comment f.strictTypes scopes), comment, scopes.map Template.Scope.lines, ?_,
    commented, ?_, ?_⟩
  · rw [file, read, Except.ok_bind, Except.ok_bind, commented, Except.ok_bind, Template.fileLayout,
      Template.fill_file]
    rfl
  · exact List.forall₂_map_right_iff.2 (kinds.imp fun _ _ => And.right)
  · rw [Lint.filledLines_lint_of_isPlain laid, Template.filledLines_fileText, List.flatMap_def]

def leaflet : Element :=
  { name := "A"
    constants := ⟨[(.text "B", { name := "B", value := "\x7b%\n %\x7d" })]⟩
    form := .cls .null [] [.text "T"] {} false false false }

def leafletFile : SourceFile :=
  { namespaces := ⟨[(.text "", { name := "", elements := ⟨[(.text "A", leaflet)]⟩ })]⟩ }

theorem isPlain_leaflet : leaflet.IsPlain where
  name := show IsPlain "A" by decide
  annotations := ⟨by simp [leaflet], trivial⟩
  names := List.forall_mem_singleton.2 (show IsPlain "T" by decide)
  cases := by simp [leaflet, Element.cases, Form.cases]
  constants := List.forall_mem_singleton.2 ⟨show IsPlain "B" by decide, ⟨by simp, trivial⟩, by
    rw [Value.IsPrintable]
    decide⟩
  properties := by simp [leaflet, Element.properties, Form.properties, Roster.values]
  methods := by simp [leaflet, Roster.values]

theorem file_filledLines_leaflet : leafletFile.IsPlain ∧ ∃ out, file {} leafletFile = .ok out ∧
    filledLines out =
      ["<?php", "class A", "\x7b", "    use T;", "    const B = '\x7b%", "     %\x7d';", "\x7d"] := by
  have plain : leafletFile.IsPlain := {
    comment := trivial
    namespaces := List.forall_mem_singleton.2 {
      name := show IsPlain "" by decide
      uses := by simp
      elements := List.forall_mem_singleton.2 isPlain_leaflet } }
  have lines : (file {} leafletFile).toOption.map filledLines =
      some ["<?php", "class A", "\x7b", "    use T;", "    const B = '\x7b%", "     %\x7d';", "\x7d"] := by
    decide +kernel
  obtain ⟨out, _, _, printed, -⟩ := file_filledLines leafletFile plain
  rw [printed] at lines
  exact ⟨plain, out, printed, Option.some.inj lines⟩

end Print

end PhpScaffold
