import PhpScaffold.Proofs.Except
import PhpScaffold.Proofs.Print.Passage
import PhpScaffold.Proofs.Print.Surroundings
import PhpScaffold.Proofs.Template.Layout

/-! Files with a gap: a constant, a case, a property or a parameter whose value is still to come.  With a text in the
gap a file is printed as that text's literal between two texts that stay the same, or it cannot be printed whatever the
text is.  The literal is read back as the text in the gap if and only if that is one line. -/

namespace PhpScaffold

/-! Gaps -/

def Constant.Gap (c : String → Constant) : Prop := ∃ c₀ : Constant, ∀ v, c v = { c₀ with value := .text v }

def EnumCase.Gap (c : String → EnumCase) : Prop := ∃ c₀ : EnumCase, ∀ v, c v = { c₀ with value := .text v }

def Property.Gap (p : String → Property) : Prop := ∃ p₀ : Property, ∀ v, p v = { p₀ with value := some (.text v) }

def Parameter.Gap (p : String → Parameter) : Prop := ∃ p₀ : Parameter, ∀ v, p v = { p₀ with default := some (.text v) }

def Method.Gap (m : String → Method) : Prop :=
  ∃ (m₀ : Method) (ps : String → Roster Parameter), List.Amid Parameter.Gap (fun v => (ps v).values) ∧
    ∀ v, m v = { m₀ with parameters := ps v }

inductive Element.Gap : (String → Element) → Prop
  | constant (e : Element) (cs : String → Roster Constant) (h : List.Amid Constant.Gap fun v => (cs v).values) :
    Gap fun v => { e with constants := cs v }
  | method (e : Element) (ms : String → Roster Method) (h : List.Amid Method.Gap fun v => (ms v).values) :
    Gap fun v => { e with methods := ms v }
  | classProperty (e : Element) (parent : Value) (interfaces traits : List Value) (ps : String → Roster Property)
    (isFinal isAbstract isReadonly : Value) (h : List.Amid Property.Gap fun v => (ps v).values) :
    Gap fun v => { e with form := .cls parent interfaces traits (ps v) isFinal isAbstract isReadonly }
  | traitProperty (e : Element) (traits : List Value) (ps : String → Roster Property)
    (h : List.Amid Property.Gap fun v => (ps v).values) : Gap fun v => { e with form := .trait traits (ps v) }
  | enumCase (e : Element) (backing : Option Backing) (interfaces traits : List Value) (cs : String → Roster EnumCase)
    (h : List.Amid EnumCase.Gap fun v => (cs v).values) :
    Gap fun v => { e with form := .enum backing interfaces traits (cs v) }

def Namespace.Gap (n : String → Namespace) : Prop :=
  ∃ (n₀ : Namespace) (es : String → Roster Element), List.Amid Element.Gap (fun v => (es v).values) ∧
    ∀ v, n v = { n₀ with elements := es v }

def SourceFile.Gap (f : String → SourceFile) : Prop :=
  ∃ (f₀ : SourceFile) (ns : String → Roster Namespace), List.Amid Namespace.Gap (fun v => (ns v).values) ∧
    ∀ v, f v = { f₀ with namespaces := ns v }

namespace Print

open Text (Carried Shifted)
open Except (Evenly)

/-! What is printed around a gap -/

/-- Whether the literal of each text, changed as a relation allows, stands between the same two texts. -/
def Quotes (R : String → String → Prop) (y : String → String) : Prop :=
  ∃ lead trail, ∀ v, ∃ w, y v = lead ++ (literal w ++ trail) ∧ R v w

def Shows (R : String → String → Prop) (y : String → String) : Prop :=
  ∃ layout : Bool → String → String, (∀ b, Quotes R (layout b)) ∧ ∀ v, ∃ b, y v = layout b v

variable {R S Q : String → String → Prop} {y : String → String} {change : String → String}

theorem Quotes.pass (h : Quotes R y) (k : Passes S change) (chain : ∀ {u v w}, R u v → S v w → Q u w) :
    Quotes Q fun v => change (y v) := by
  obtain ⟨lead, trail, quoted⟩ := h
  obtain ⟨lead', trail', passed⟩ := k lead trail
  refine ⟨lead', trail', fun u => ?_⟩
  obtain ⟨v, whole, related⟩ := quoted u
  obtain ⟨w, again, further⟩ := passed v
  exact ⟨w, by simp only [whole, again], chain related further⟩

theorem Quotes.shows (h : Quotes R y) : Shows R y := ⟨fun _ => y, fun _ => h, fun _ => ⟨true, rfl⟩⟩

theorem Shows.pass (h : Shows R y) (k : Passes S change) (chain : ∀ {u v w}, R u v → S v w → Q u w) :
    Shows Q fun v => change (y v) := by
  obtain ⟨layout, each, one⟩ := h
  refine ⟨fun b v => change (layout b v), fun b => (each b).pass k chain, fun v => ?_⟩
  obtain ⟨b, same⟩ := one v
  exact ⟨b, by simp only [same]⟩

theorem quotes_literal (lead trail : String) : Quotes Carried fun v => lead ++ literal v ++ trail :=
  ⟨lead, trail, fun v => ⟨v, String.append_assoc, .refl v⟩⟩

theorem quotes_literal_end (lead : String) : Quotes Carried fun v => lead ++ literal v :=
  ⟨lead, "", fun v => ⟨v, by rw [String.append_empty], .refl v⟩⟩

theorem passes_around {change : String → String} (front back : String) (h : ∀ t, change t = front ++ (t ++ back)) :
    Passes Carried change :=
  fun a b => ⟨front ++ a, b ++ back, fun v => ⟨v, by simp only [h, String.append_assoc], .refl v⟩⟩

theorem passes_front (front : String) : Passes Carried fun t => front ++ t :=
  passes_around front "" fun t => by rw [String.append_empty]

theorem passes_back (back : String) : Passes Carried fun t => t ++ back :=
  passes_around "" back fun t => by rw [String.empty_append]

theorem passes_intercalate (sep : String) (before after : List String) :
    Passes Carried fun t => sep.intercalate (before ++ t :: after) :=
  passes_around _ _ fun t => Text.intercalate_append_cons sep t before after

theorem passes_join (front back : String) (before after : List String) :
    Passes Carried fun t => front ++ (String.join (before ++ t :: after) ++ back) := by
  refine passes_around (front ++ String.join before) (String.join after ++ back) fun t => ?_
  simp only [String.join_append, String.join_cons, String.append_assoc]

theorem shows_join {texts : String → List String} (h : List.Amid (Shows Shifted) texts) (front back : String) :
    Shows Shifted fun v => front ++ (String.join (texts v) ++ back) := by
  obtain ⟨before, y, after, shown, whole⟩ := h
  simp only [whole]
  exact shown.pass (passes_join front back before after) Shifted.trans_carried

/-! Members -/

variable (ns : Namespace)

theorem constant_evenly {c : String → Constant} (gap : Constant.Gap c) :
    Evenly (fun v => constant ns (c v)) (Shows Carried) := by
  obtain ⟨c₀, whole⟩ := gap
  simp only [whole, constant, value_text, Except.ok_bind]
  exact .after _ fun lead _ => .ok (quotes_literal _ ";").shows

theorem enumCase_evenly {c : String → EnumCase} (gap : EnumCase.Gap c) :
    Evenly (fun v => enumCase ns (c v)) (Shows Carried) := by
  obtain ⟨c₀, whole⟩ := gap
  simp only [whole, enumCase, value_text, Except.ok_bind]
  exact .after _ fun lead _ => .ok (quotes_literal _ ";").shows

theorem property_evenly {p : String → Property} (gap : Property.Gap p) :
    Evenly (fun v => property ns (p v)) (Shows Carried) := by
  obtain ⟨p₀, whole⟩ := gap
  simp only [whole, property, value_text, Except.ok_bind]
  exact .after _ fun comment _ => .after _ fun type _ => .after _ fun lead _ => .ok (quotes_literal _ ";").shows

theorem parameter_evenly {p : String → Parameter} (gap : Parameter.Gap p) :
    Evenly (fun v => parameter ns (p v)) fun y => Quotes Carried (fun v => (y v).1) ∧ ∃ full, ∀ v, (y v).2 = full := by
  obtain ⟨p₀, whole⟩ := gap
  simp only [whole, parameter, value_text, Except.ok_bind]
  refine .after _ fun attributes _ => .after _ fun type _ => .after _ fun remark _ => .ok ⟨?_, _, fun _ => rfl⟩
  refine Quotes.pass ?_ (passes_front remark) Carried.trans
  exact (quotes_literal_end _).pass (passes_intercalate " " _ []) Carried.trans

theorem params_eq (ps : List Parameter) (written : List (String × Option String)) :
    ((ps.zip written).filterMap fun (p, w) => w.2.map fun t => "@param " ++ t ++ " $" ++ p.name.display) =
      ((ps.map Parameter.name).zip (written.map Prod.snd)).filterMap fun (n, t) =>
        t.map fun t => "@param " ++ t ++ " $" ++ n.display := by
  rw [List.zip_map, List.filterMap_map]
  rfl

theorem signature_shows (start returns : String) (alone : Bool) {parameters : String → List String}
    (h : List.Amid (Quotes Carried) parameters) (lead : String) (tail : Bool → String) :
    Shows Carried fun v => lead ++ (signature start (parameters v) alone returns).text ++
      tail (signature start (parameters v) alone returns).wrapped := by
  obtain ⟨before, y, after, quoted, whole⟩ := h
  let own (p : String) := Text.indent (p ++ ",")
  let inline := Text.replace '\n' ' '
  let layout : Bool → String → String
    | true => fun v => "\n".intercalate
      (([start ++ "("] ++ before.map own) ++ own (y v) :: (after.map own ++ [")" ++ returns]))
    | false => fun v => start ++ "(" ++
      ", ".intercalate (before.map inline ++ inline (y v) :: after.map inline) ++ ")" ++ returns
  have laid (b : Bool) : Quotes Carried (layout b) := by
    cases b with
    | true =>
      have line : Quotes Carried fun v => own (y v) :=
        (quoted.pass (passes_back ",") Carried.trans).pass passes_indent Carried.trans
      exact line.pass (passes_intercalate "\n" _ _) Carried.trans
    | false =>
      have part : Quotes Carried fun v => inline (y v) := quoted.pass passes_replace Carried.trans
      have around : Passes Carried fun t => start ++ "(" ++ t ++ ")" ++ returns :=
        passes_around (start ++ "(") (")" ++ returns) fun t => by simp only [String.append_assoc]
      exact (part.pass (passes_intercalate ", " _ _) Carried.trans).pass around Carried.trans
  refine ⟨fun b v => lead ++ layout b v ++ tail b, fun b => (laid b).pass
    (passes_around lead (tail b) fun _ => String.append_assoc) Carried.trans, fun v => ?_⟩
  simp only [whole, signature, List.map_append, List.map_cons]
  split
  · exact ⟨true, by simp only [layout, own, List.append_assoc, List.cons_append]⟩
  · exact ⟨false, rfl⟩

theorem method_evenly {m : String → Method} (gap : Method.Gap m) (bodyless : Bool) :
    Evenly (fun v => method ns bodyless (m v)) (Shows Carried) := by
  obtain ⟨m₀, ps, amid, whole⟩ := gap
  have named : ∃ names, ∀ v, (ps v).values.map Parameter.name = names :=
    amid.exists_map_eq fun p ⟨p₀, same⟩ => ⟨p₀.name, fun v => by rw [same]⟩
  have marked : ∃ marks, ∀ v, (ps v).values.map standsAlone = marks :=
    amid.exists_map_eq fun p ⟨p₀, same⟩ => ⟨standsAlone p₀, fun v => by rw [same]; rfl⟩
  obtain ⟨names, named⟩ := named
  obtain ⟨marks, marked⟩ := marked
  -- the gap is in the code of one parameter, and nothing else of the method sees it
  have alone (v : String) : (ps v).values.any standsAlone = marks.any id := by
    rw [← marked v, List.any_map]
    rfl
  have modified (v : String) : methodModifiers { m₀ with parameters := ps v } = methodModifiers m₀ := rfl
  simp only [whole, method, params_eq, named, alone, modified]
  refine .after _ fun comment _ => .bind (.mapM amid fun p gap => parameter_evenly ns gap) fun written kind => ?_
  obtain ⟨fulls, told⟩ := kind.exists_map_eq (f := Prod.snd) fun y h => h.2
  have codes : List.Amid (Quotes Carried) fun v => (written v).map Prod.fst := kind.map fun y h => h.1
  simp only [told]
  refine .after _ fun returns _ => .after _ fun lead _ => ?_
  have shown := signature_shows (" ".intercalate (methodModifiers m₀) ++ " function " ++ m₀.name.display)
    ((returns.map (": " ++ ·.plain)).getD "") (marks.any id) codes lead
  by_cases short : (bodyless || m₀.isAbstract.truthy) = true
  · simp only [short, if_true]
    exact .ok (shown fun _ => ";")
  · simp only [short]
    refine .after _ fun text _ => .ok ?_
    simpa only [String.append_assoc] using
      shown fun wrapped => (if wrapped then " \x7b" else "\n\x7b") ++ "\n" ++ text ++ "\x7d"

/-! Elements and files -/

theorem amid_gather {lines : String → List String} (h : List.Amid (Shows Carried) lines) :
    List.Amid (Shows Carried) fun v => gather (lines v) := by
  obtain ⟨before, y, after, shown, whole⟩ := h
  refine ⟨[], _, [], shown.pass (passes_intercalate "\n" before after) Carried.trans, fun v => ?_⟩
  simp [whole, gather]

def sectionsOf (bodyless : Bool) (traits : List Value) (cases : List EnumCase) (constants : List Constant)
    (properties : List Property) (methods : List Method) : Except Fault (List String) := do
  let traits ← traits.mapM fun t => return "use " ++ (← ns.shortName t).display ++ ";"
  let cases ← cases.mapM (enumCase ns)
  let constants ← constants.mapM (constant ns)
  let properties ← properties.mapM (property ns)
  let methods ← methods.mapM (method ns bodyless)
  return gather traits ++ gather cases ++ gather constants ++ properties ++ methods

section

variable (bodyless : Bool) (traits : List Value) (cases : List EnumCase) (constants : List Constant)
  (properties : List Property) (methods : List Method)

theorem sectionsOf_cases {cs : String → List EnumCase} (h : List.Amid EnumCase.Gap cs) :
    Evenly (fun v => sectionsOf ns bodyless traits (cs v) constants properties methods)
      (List.Amid (Shows Carried)) := by
  refine .after _ fun traits _ => .bind (.mapM h fun c gap => enumCase_evenly ns gap) fun cases shown => ?_
  refine .after _ fun constants _ => .after _ fun properties _ => .after _ fun methods _ => ?_
  have gathered := amid_gather shown
  exact .ok ((((gathered.append_left _).append_right _).append_right _).append_right _)

theorem sectionsOf_constants {cs : String → List Constant} (h : List.Amid Constant.Gap cs) :
    Evenly (fun v => sectionsOf ns bodyless traits cases (cs v) properties methods)
      (List.Amid (Shows Carried)) := by
  refine .after _ fun traits _ => .after _ fun cases _ => ?_
  refine .bind (.mapM h fun c gap => constant_evenly ns gap) fun constants shown => ?_
  refine .after _ fun properties _ => .after _ fun methods _ => ?_
  have gathered := amid_gather shown
  exact .ok (((gathered.append_left _).append_right _).append_right _)

theorem sectionsOf_properties {ps : String → List Property} (h : List.Amid Property.Gap ps) :
    Evenly (fun v => sectionsOf ns bodyless traits cases constants (ps v) methods)
      (List.Amid (Shows Carried)) := by
  refine .after _ fun traits _ => .after _ fun cases _ => .after _ fun constants _ => ?_
  refine .bind (.mapM h fun p gap => property_evenly ns gap) fun properties shown => .after _ fun methods _ => ?_
  exact .ok ((shown.append_left _).append_right _)

theorem sectionsOf_methods {ms : String → List Method} (h : List.Amid Method.Gap ms) :
    Evenly (fun v => sectionsOf ns bodyless traits cases constants properties (ms v))
      (List.Amid (Shows Carried)) := by
  refine .after _ fun traits _ => .after _ fun cases _ => .after _ fun constants _ => .after _ fun properties _ => ?_
  refine .bind (.mapM h fun m gap => method_evenly ns gap bodyless) fun methods shown => ?_
  exact .ok (shown.append_left _)

end

theorem sections_evenly {e : String → Element} (gap : Element.Gap e) :
    Evenly (fun v => sections ns (e v)) (List.Amid (Shows Carried)) := by
  cases gap with
  | constant e cs h =>
    exact sectionsOf_constants ns (e.kind = .interface) e.traits e.cases e.properties e.methods.values h
  | method e ms h =>
    exact sectionsOf_methods ns (e.kind = .interface) e.traits e.cases e.constants.values e.properties h
  | classProperty e parent interfaces traits ps isFinal isAbstract isReadonly h =>
    exact sectionsOf_properties ns false traits [] e.constants.values e.methods.values h
  | traitProperty e traits ps h => exact sectionsOf_properties ns false traits [] e.constants.values e.methods.values h
  | enumCase e backing interfaces traits cs h =>
    exact sectionsOf_cases ns false traits e.constants.values [] e.methods.values h

theorem element_eq (e : Element) : element (.ok Template.elementLayout) ns e = do
    let sections ← sections ns e
    let comment ← commentLines e.annotations.comment
    let attributes ← e.annotations.attributes.mapM (attr ns)
    let header ← elementHeader ns e
    return Template.elementText (docblock comment) attributes header sections := by
  simp only [element, Except.ok_bind, Template.elementLayout, Template.fill_element]
  rfl

theorem exists_rest {e : String → Element} (gap : Element.Gap e) :
    ∃ annotations header, ∀ v, (e v).annotations = annotations ∧ elementHeader ns (e v) = header := by
  refine ⟨(e "").annotations, elementHeader ns (e ""), fun v => ?_⟩
  cases gap with
  | enumCase e backing =>
    -- the keyword of a backing type stands in the header
    cases backing <;> exact ⟨rfl, rfl⟩
  | _ => exact ⟨rfl, rfl⟩

theorem elementText_shows (docblock : String) (attributes : List String) (header : String)
    {sections : String → List String} (h : List.Amid (Shows Carried) sections) :
    Shows Shifted fun v => Template.elementText docblock attributes header (sections v) := by
  have blocks : List.Amid (Shows Shifted) fun v => (sections v).map fun s => Text.block unit true false s ++ "\n\n" :=
    h.map fun y shown => (shown.pass passes_block Carried.trans_shifted).pass (passes_back "\n\n") Shifted.trans_carried
  have around := shows_join blocks ((if docblock.isEmpty then "" else docblock ++ "\n") ++
    (String.join (attributes.map (· ++ "\n")) ++ (header ++ "\n\x7b\n"))) "\x7d"
  simpa only [Template.elementText, String.append_assoc] using around

theorem element_evenly {e : String → Element} (gap : Element.Gap e) :
    Evenly (fun v => element (.ok Template.elementLayout) ns (e v)) (Shows Shifted) := by
  obtain ⟨annotations, header, rest⟩ := exists_rest ns gap
  simp only [element_eq, (rest _).1, (rest _).2]
  refine .bind (sections_evenly ns gap) fun sections shown => .after _ fun comment _ => ?_
  refine .after _ fun attributes _ => .after _ fun header _ => ?_
  exact .ok (elementText_shows (docblock comment) attributes header shown)

def scope : Except Fault Template.Scope := do
  return ⟨ns.name, ns.useStatements, ← ns.elements.values.mapM (element (.ok Template.elementLayout) ns)⟩

theorem scopeBindings_eq : scopeBindings (.ok Template.elementLayout) ns = (scope ns).map Template.Scope.value := by
  rw [scopeBindings, scope]
  cases ns.elements.values.mapM (element (.ok Template.elementLayout) ns) <;> rfl

theorem file_eq (f : SourceFile) : file {} f = do
    let scopes ← f.namespaces.values.mapM scope
    let comment ← commentLines f.comment
    return Lint.lint (Template.fileText comment f.strictTypes scopes) := by
  have bindings : scopeBindings (.ok Template.elementLayout) = fun ns => (scope ns).map Template.Scope.value :=
    funext scopeBindings_eq
  rw [file, bindings, Except.mapM_map]
  cases f.namespaces.values.mapM scope with
  | error e => rfl
  | ok scopes =>
    cases commentLines f.comment with
    | error e => rfl
    | ok comment =>
      simp only [Except.map, Except.ok_bind, Template.fileLayout, Template.fill_file]

theorem scope_evenly {n : String → Namespace} (gap : Namespace.Gap n) :
    Evenly (fun v => scope (n v)) fun s => Shows Shifted fun v => (s v).text := by
  obtain ⟨n₀, es, amid, whole⟩ := gap
  simp only [whole, scope, element_elements, Namespace.useStatements_elements]
  refine .bind (.mapM amid fun e gap => element_evenly n₀ gap) fun elements shown => .ok ?_
  have texts : List.Amid (Shows Shifted) fun v => (elements v).map fun e => "\n" ++ (e ++ "\n") :=
    shown.map fun y shown => shown.pass (passes_around "\n" "\n" fun _ => rfl) Shifted.trans_carried
  have around := shows_join texts ((if n₀.name.truthy then "\nnamespace " ++ (n₀.name.display ++ ";\n") else "") ++
    (if n₀.useStatements.isEmpty then "" else
      "\n" ++ String.join (n₀.useStatements.map fun u => "use " ++ (u ++ ";\n")))) ""
  simpa only [Template.Scope.text, String.append_assoc, String.append_empty] using around

theorem file_evenly {f : String → SourceFile} (gap : SourceFile.Gap f) :
    Evenly (fun v => file {} (f v)) (Shows Shifted) := by
  obtain ⟨f₀, ns, amid, whole⟩ := gap
  simp only [whole, file_eq]
  refine .bind (.mapM amid fun n gap => scope_evenly gap) fun scopes shown => .after _ fun comment _ => .ok ?_
  have texts : List.Amid (Shows Shifted) fun v => (scopes v).map Template.Scope.text := shown.map fun _ => id
  have around := shows_join texts ("<?php\n" ++ ((if comment.isEmpty then "" else
      "\n/**\n" ++ (String.join (comment.map fun l => " * " ++ (l ++ "\n")) ++ " */\n")) ++
    if f₀.strictTypes.truthy then "\ndeclare(strict_types=1);\n" else "")) ""
  have laid : Shows Shifted fun v => Template.fileText comment f₀.strictTypes (scopes v) := by
    simpa only [Template.fileText, String.append_assoc, String.append_empty] using around
  exact laid.pass Lint.passes_lint Shifted.trans_carried

/-- A file with a text in its gap is printed as a literal between two texts that only depend on which of two layouts the
text asks for.  The literal is read back as the text in the gap if and only if that has no line end.  Otherwise the file
cannot be printed, whatever the text is. -/
theorem file_literal {f : String → SourceFile} (gap : SourceFile.Gap f) :
    (∃ fault, ∀ v, file {} (f v) = .error fault) ∨
    ∃ lead trail : Bool → String, ∀ v, ∃ layout w,
      file {} (f v) = .ok (lead layout ++ (literal w ++ trail layout)) ∧
      readLiteral (literal w ++ trail layout) = some (w, trail layout) ∧
      (w = v ↔ ∀ c ∈ v.toList, Text.isLineBreak c = false) := by
  obtain fails | ⟨y, ⟨layouts, each, one⟩, printed⟩ := file_evenly gap
  · exact .inl fails
  · choose lead trail quoted using each
    refine .inr ⟨lead, trail, fun v => ?_⟩
    obtain ⟨layout, same⟩ := one v
    obtain ⟨w, whole, shifted⟩ := quoted layout v
    exact ⟨layout, w, (printed v).trans (by rw [same, whole]), readLiteral_literal w _, shifted.eq_iff⟩

def constantFile (v : String) : SourceFile :=
  { namespaces := ⟨[(.text "App", { name := "App", elements := ⟨[(.text "A",
      { name := "A", constants := ⟨[(.text "X", { name := "X", value := .text v })]⟩, form := .bare .cls })]⟩ })]⟩ }

theorem gap_constantFile : SourceFile.Gap constantFile := by
  have constant : List.Amid Constant.Gap fun v => [({ name := "X", value := .text v } : Constant)] :=
    ⟨[], _, [], ⟨{ name := "X", value := .null }, fun _ => rfl⟩, fun _ => rfl⟩
  have element : Element.Gap fun v =>
      { name := "A", constants := ⟨[(.text "X", { name := "X", value := .text v })]⟩, form := .bare .cls } :=
    .constant { name := "A", form := .bare .cls } (fun v => ⟨[(.text "X", { name := "X", value := .text v })]⟩) constant
  refine ⟨{}, fun v => (constantFile v).namespaces, ⟨[], _, [], ?_, fun _ => rfl⟩, fun _ => rfl⟩
  exact ⟨{ name := "App" }, _, ⟨[], _, [], element, fun _ => rfl⟩, fun _ => rfl⟩

theorem file_literal_line :
    ∃ lead trail, file {} (constantFile "it's \\") = .ok (lead ++ (literal "it's \\" ++ trail)) ∧
      readLiteral (literal "it's \\" ++ trail) = some ("it's \\", trail) := by
  obtain ⟨fault, fails⟩ | ⟨lead, trail, printed⟩ := file_literal gap_constantFile
  · have ends : (file {} (constantFile "")).toBool = true := by decide +kernel
    rw [fails] at ends
    cases ends
  · obtain ⟨layout, w, whole, read, same⟩ := printed "it's \\"
    have line : ("it's \\".toList.all fun c => Text.isLineBreak c == false) = true := by decide
    obtain rfl := same.2 fun c hc => eq_of_beq (List.all_eq_true.1 line c hc)
    exact ⟨lead layout, trail layout, whole, read⟩

theorem file_literal_lines :
    (file {} (constantFile "a\nb")).toOption =
        some ("<?php\n\nnamespace App;\n\nclass A\n\x7b\n    const X = " ++ (literal "a\n    b" ++ ";\n\x7d\n")) ∧
      readLiteral (literal "a\n    b" ++ ";\n\x7d\n") = some ("a\n    b", ";\n\x7d\n") ∧ "a\n    b" ≠ "a\nb" := by
  refine ⟨by decide +kernel, readLiteral_literal _ _, by decide⟩

end Print

end PhpScaffold
