import PhpScaffold.Proofs.Print.Gap
import PhpScaffold.Proofs.Text.Stand

namespace PhpScaffold.Print

open Text (StandsIn)
open Except (bind_eq_ok forall₂_of_mapM)

variable {ns : Namespace} {e : Element} {f : SourceFile} {out t : String} {ss ls : List String}

theorem docblock_ne_empty (some : ls ≠ []) : docblock ls ≠ "" := by
  rw [docblock, if_neg (by simpa using some)]
  simp

/-! What each member is made of -/

theorem enumCase_eq_ok {c : EnumCase} (h : enumCase ns c = .ok t) :
    ∃ lead tail, annotated ns c.annotations = .ok lead ∧ t = lead ++ tail ∧
      (c.value = .null ∨ ∃ start code, value ns c.value = .ok code ∧ tail = start ++ code ++ ";") := by
  obtain ⟨lead, front, h⟩ := bind_eq_ok.1 h
  split at h
  · rename_i none
    refine ⟨lead, "case " ++ c.name.display ++ ";", front, ?_, .inl none⟩
    rw [← Except.ok.inj h]
    simp only [String.append_assoc]
  · obtain ⟨code, printed, h⟩ := bind_eq_ok.1 h
    refine ⟨lead, "case " ++ c.name.display ++ " = " ++ code ++ ";", front, ?_, .inr ⟨_, code, printed, rfl⟩⟩
    rw [← Except.ok.inj h]
    simp only [String.append_assoc]

theorem constant_eq_ok {c : Constant} (h : constant ns c = .ok t) :
    ∃ lead start code, annotated ns c.annotations = .ok lead ∧ value ns c.value = .ok code ∧
      t = lead ++ (start ++ code ++ ";") := by
  obtain ⟨lead, front, h⟩ := bind_eq_ok.1 h
  obtain ⟨code, printed, h⟩ := bind_eq_ok.1 h
  refine ⟨lead, " ".intercalate (word c.isFinal "final" ++ (c.visibility.map Visibility.keyword).toList ++ ["const"]) ++
    " " ++ c.name.display ++ " = ", code, front, printed, ?_⟩
  rw [← Except.ok.inj h]
  simp only [String.append_assoc]

theorem property_eq_ok {p : Property} (h : property ns p = .ok t) :
    ∃ comment type lead modifiers tail, commentLines p.annotations.comment = .ok comment ∧
      writeType? ns p.type p.nullable = .ok type ∧
      header ns (comment ++ (full type).toList.map ("@var " ++ ·)) p.annotations.attributes = .ok lead ∧
      t = lead ++ (" ".intercalate (modifiers ++ plainText type) ++ tail) ∧
      ∀ v, p.value = some v → ∃ start code, value ns v = .ok code ∧ tail = start ++ code ++ ";" := by
  obtain ⟨comment, commented, h⟩ := bind_eq_ok.1 h
  obtain ⟨type, written, h⟩ := bind_eq_ok.1 h
  obtain ⟨lead, front, h⟩ := bind_eq_ok.1 h
  let modifiers := [p.visibility.keyword] ++ word p.isStatic "static" ++ word p.isReadonly "readonly"
  cases given : p.value with
  | none =>
    simp only [given] at h
    refine ⟨comment, type, lead, modifiers, " $" ++ p.name.display ++ ";", commented, written, front, ?_, by simp⟩
    rw [← Except.ok.inj h]
    simp only [modifiers, String.append_assoc]
  | some v =>
    simp only [given] at h
    obtain ⟨code, printed, h⟩ := bind_eq_ok.1 h
    refine ⟨comment, type, lead, modifiers, " $" ++ p.name.display ++ " = " ++ code ++ ";", commented, written, front,
      ?_, ?_⟩
    · rw [← Except.ok.inj h]
      simp only [modifiers, String.append_assoc]
    · rintro _ ⟨⟩
      exact ⟨_, code, printed, rfl⟩

theorem parameter_eq_ok {p : Parameter} {w : String × Option String} (h : parameter ns p = .ok w) :
    ∃ attributes promotion type name note, p.annotations.attributes.mapM (attr ns) = .ok attributes ∧
      writeType? ns p.type p.nullable = .ok type ∧
      (∀ v, p.default = some v → ∃ start code, value ns v = .ok code ∧ name = start ++ code) ∧
      remark p.annotations.comment = .ok note ∧
      w = (note ++ " ".intercalate (attributes ++ promotion ++ plainText type ++ [name]), full type) := by
  obtain ⟨attributes, front, h⟩ := bind_eq_ok.1 h
  obtain ⟨type, written, h⟩ := bind_eq_ok.1 h
  cases given : p.default with
  | none =>
    simp only [given] at h
    obtain ⟨name, -, h⟩ := bind_eq_ok.1 h
    obtain ⟨note, noted, h⟩ := bind_eq_ok.1 h
    exact ⟨attributes, _, type, name, note, front, written, by simp, noted, (Except.ok.inj h).symm⟩
  | some v =>
    simp only [given] at h
    obtain ⟨code, printed, h⟩ := bind_eq_ok.1 h
    obtain ⟨name, named, h⟩ := bind_eq_ok.1 h
    obtain ⟨note, noted, h⟩ := bind_eq_ok.1 h
    obtain rfl := Except.ok.inj named
    refine ⟨attributes, _, type, _, note, front, written, ?_, noted, (Except.ok.inj h).symm⟩
    rintro _ ⟨⟩
    exact ⟨_, code, printed, rfl⟩

def docOf (m : Method) (comment : List String) (written : List (String × Option String))
    (returns : Option WrittenType) : List String :=
  comment ++
    ((m.parameters.values.zip written).filterMap fun (p, w) =>
      w.2.map fun t => "@param " ++ t ++ " $" ++ p.name.display) ++ (full returns).toList.map ("@return " ++ ·)

def headOf (m : Method) (written : List (String × Option String)) (returns : Option WrittenType) : Signature :=
  signature (" ".intercalate (methodModifiers m) ++ " function " ++ m.name.display) (written.map Prod.fst)
    (m.parameters.values.any standsAlone) ((returns.map (": " ++ ·.plain)).getD "")

def methodDoc (ns : Namespace) (m : Method) : Except Fault (List String) := do
  return docOf m (← commentLines m.annotations.comment) (← m.parameters.values.mapM (parameter ns))
    (← writeType? ns m.returnType m.returnNullable)

def methodHead (ns : Namespace) (m : Method) : Except Fault Signature := do
  return headOf m (← m.parameters.values.mapM (parameter ns)) (← writeType? ns m.returnType m.returnNullable)

def terminator (bodyless : Bool) (m : Method) : String := if bodyless || m.isAbstract.truthy then ";" else ""

theorem method_eq (ns : Namespace) (bodyless : Bool) (m : Method) : method ns bodyless m = do
    let comment ← commentLines m.annotations.comment
    let written ← m.parameters.values.mapM (parameter ns)
    let returns ← writeType? ns m.returnType m.returnNullable
    let lead ← header ns (docOf m comment written returns) m.annotations.attributes
    if bodyless || m.isAbstract.truthy then return lead ++ (headOf m written returns).text ++ ";"
    return lead ++ (headOf m written returns).text ++
      (if (headOf m written returns).wrapped then " \x7b" else "\n\x7b") ++ "\n" ++ (← body m.body) ++ "\x7d" := rfl

theorem method_eq_ok {bodyless : Bool} {m : Method} (h : method ns bodyless m = .ok t) :
    ∃ doc sig lead tail, methodDoc ns m = .ok doc ∧ methodHead ns m = .ok sig ∧
      header ns doc m.annotations.attributes = .ok lead ∧ t = lead ++ (sig.text ++ (terminator bodyless m ++ tail)) ∧
      (sig.wrapped = false → tail = "" ∨ ∃ r, tail = "\n" ++ r) := by
  rw [method_eq] at h
  obtain ⟨comment, commented, h⟩ := bind_eq_ok.1 h
  obtain ⟨written, read, h⟩ := bind_eq_ok.1 h
  obtain ⟨returns, typed, h⟩ := bind_eq_ok.1 h
  obtain ⟨lead, fronted, h⟩ := bind_eq_ok.1 h
  have told : methodDoc ns m = .ok (docOf m comment written returns) := by
    rw [methodDoc, commented, Except.ok_bind, read, Except.ok_bind, typed]
    rfl
  have headed : methodHead ns m = .ok (headOf m written returns) := by
    rw [methodHead, read, Except.ok_bind, typed]
    rfl
  split at h
  · rename_i short
    refine ⟨_, _, lead, "", told, headed, fronted, ?_, fun _ => .inl rfl⟩
    rw [terminator, if_pos short, ← Except.ok.inj h, String.append_empty, String.append_assoc]
  · rename_i long
    obtain ⟨text, -, h⟩ := bind_eq_ok.1 h
    let tail := (if (headOf m written returns).wrapped then " \x7b" else "\n\x7b") ++ ("\n" ++ (text ++ "\x7d"))
    refine ⟨_, _, lead, tail, told, headed, fronted, ?_, fun inline => .inr ⟨"\x7b" ++ ("\n" ++ (text ++ "\x7d")), ?_⟩⟩
    · rw [terminator, if_neg long, ← Except.ok.inj h, String.empty_append]
      simp only [String.append_assoc, tail]
    · simp only [tail, inline]
      rfl

theorem ended_header {doc : List String} {attributes : List Attribute} {lead : String}
    (h : header ns doc attributes = .ok lead) : Text.Ended lead := by
  obtain ⟨lines, -, h⟩ := bind_eq_ok.1 h
  obtain rfl := Except.ok.inj h
  exact Text.ended_join _

/-! Sections -/

theorem sections_eq_ok (h : sections ns e = .ok ss) : ∃ traits cases constants properties methods,
    e.traits.mapM (fun t => do return "use " ++ (← ns.shortName t).display ++ ";") = .ok traits ∧
    e.cases.mapM (enumCase ns) = .ok cases ∧ e.constants.values.mapM (constant ns) = .ok constants ∧
    e.properties.mapM (property ns) = .ok properties ∧
    e.methods.values.mapM (method ns (e.kind = .interface)) = .ok methods ∧
    ss = gather traits ++ gather cases ++ gather constants ++ properties ++ methods := by
  obtain ⟨traits, used, h⟩ := bind_eq_ok.1 h
  obtain ⟨cases, listed, h⟩ := bind_eq_ok.1 h
  obtain ⟨constants, fixed, h⟩ := bind_eq_ok.1 h
  obtain ⟨properties, held, h⟩ := bind_eq_ok.1 h
  obtain ⟨methods, defined, h⟩ := bind_eq_ok.1 h
  exact ⟨traits, cases, constants, properties, methods, used, listed, fixed, held, defined, (Except.ok.inj h).symm⟩

theorem standsIn_gather (h : t ∈ ls) : ∃ s ∈ gather ls, StandsIn t s := by
  rw [gather, if_neg (by simpa using List.ne_nil_of_mem h)]
  exact ⟨_, List.mem_singleton_self _, .intercalate h⟩

theorem method_standsIn (h : sections ns e = .ok ss) {m : Method} (hm : m ∈ e.methods.values) :
    ∃ t, method ns (e.kind = .interface) m = .ok t ∧ t ∈ ss := by
  obtain ⟨traits, cases, constants, properties, methods, -, -, -, -, defined, rfl⟩ := sections_eq_ok h
  obtain ⟨t, ht, printed⟩ := (forall₂_of_mapM defined).exists_of_mem hm
  exact ⟨t, printed, by simp [ht]⟩

theorem property_standsIn (h : sections ns e = .ok ss) {p : Property} (hp : p ∈ e.properties) :
    ∃ t, property ns p = .ok t ∧ t ∈ ss := by
  obtain ⟨traits, cases, constants, properties, methods, -, -, -, held, -, rfl⟩ := sections_eq_ok h
  obtain ⟨t, ht, printed⟩ := (forall₂_of_mapM held).exists_of_mem hp
  exact ⟨t, printed, by simp [ht]⟩

theorem constant_standsIn (h : sections ns e = .ok ss) {c : Constant} (hc : c ∈ e.constants.values) :
    ∃ t, constant ns c = .ok t ∧ ∃ s ∈ ss, StandsIn t s := by
  obtain ⟨traits, cases, constants, properties, methods, -, -, fixed, -, -, rfl⟩ := sections_eq_ok h
  obtain ⟨t, ht, printed⟩ := (forall₂_of_mapM fixed).exists_of_mem hc
  obtain ⟨s, hs, stands⟩ := standsIn_gather ht
  exact ⟨t, printed, s, by simp [hs], stands⟩

theorem enumCase_standsIn (h : sections ns e = .ok ss) {c : EnumCase} (hc : c ∈ e.cases) :
    ∃ t, enumCase ns c = .ok t ∧ ∃ s ∈ ss, StandsIn t s := by
  obtain ⟨traits, cases, constants, properties, methods, -, listed, -, -, -, rfl⟩ := sections_eq_ok h
  obtain ⟨t, ht, printed⟩ := (forall₂_of_mapM listed).exists_of_mem hc
  obtain ⟨s, hs, stands⟩ := standsIn_gather ht
  exact ⟨t, printed, s, by simp [hs], stands⟩

/-! Elements -/

theorem element_eq_ok (h : element (.ok Template.elementLayout) ns e = .ok t) : ∃ ss comment attributes header,
    sections ns e = .ok ss ∧ commentLines e.annotations.comment = .ok comment ∧
    e.annotations.attributes.mapM (attr ns) = .ok attributes ∧ elementHeader ns e = .ok header ∧
    t = Template.elementText (docblock comment) attributes header ss := by
  rw [element_eq] at h
  obtain ⟨ss, sectioned, h⟩ := bind_eq_ok.1 h
  obtain ⟨comment, commented, h⟩ := bind_eq_ok.1 h
  obtain ⟨attributes, attributed, h⟩ := bind_eq_ok.1 h
  obtain ⟨header, headed, h⟩ := bind_eq_ok.1 h
  exact ⟨ss, comment, attributes, header, sectioned, commented, attributed, headed, (Except.ok.inj h).symm⟩

theorem block_standsIn {docblock header : String} {attributes : List String} {s : String} (h : s ∈ ss) :
    StandsIn (Text.block unit true false s) (Template.elementText docblock attributes header ss) := by
  let shifted (s : String) := Text.block unit true false s
  have listed : shifted s ++ "\n" ∈ ss.map fun s => shifted s ++ "\n" := List.mem_map_of_mem h
  have sections : StandsIn (shifted s)
      (String.join ((ss.map fun s => shifted s ++ "\n").map (· ++ "\n")) ++ "\x7d") :=
    StandsIn.trans (by simpa using StandsIn.front (shifted s) "") (.join listed _)
  have laid : Template.elementText docblock attributes header ss =
      (if docblock.isEmpty then "" else docblock ++ "\n") ++ (String.join (attributes.map (· ++ "\n")) ++ (header ++
        ("\n" ++ "\x7b"))) ++ ("\n" ++
        (String.join ((ss.map fun s => shifted s ++ "\n").map (· ++ "\n")) ++ "\x7d")) := by
    have twice : "\n\n" = "\n" ++ "\n" := rfl
    have brace : "\n\x7b\n" = "\n" ++ ("\x7b" ++ "\n") := rfl
    simp only [Template.elementText, List.map_map, Function.comp_def, twice, brace, String.append_assoc, shifted]
  rw [laid]
  exact sections.trans (.back _ _)

/-! Files -/

theorem standsIn_scope {s : Template.Scope} (h : t ∈ s.elements) :
    ∃ a b, s.text = a ++ ("\n" ++ (t ++ ("\n" ++ b))) := by
  obtain ⟨before, after, listed⟩ := List.append_of_mem h
  refine ⟨(if s.name.truthy then "\nnamespace " ++ (s.name.display ++ ";\n") else "") ++
    ((if s.uses.isEmpty then "" else "\n" ++ String.join (s.uses.map fun u => "use " ++ (u ++ ";\n"))) ++
      String.join (before.map fun e => "\n" ++ (e ++ "\n"))), String.join (after.map fun e => "\n" ++ (e ++ "\n")), ?_⟩
  simp only [Template.Scope.text, listed, List.map_append, List.map_cons, String.join_append, String.join_cons,
    String.append_assoc]

theorem element_standsIn (h : file {} f = .ok out) (hn : ns ∈ f.namespaces.values) (he : e ∈ ns.elements.values) :
    ∃ t source, element (.ok Template.elementLayout) ns e = .ok t ∧ StandsIn t source ∧ out = Lint.lint source := by
  rw [file_eq] at h
  obtain ⟨scopes, read, h⟩ := bind_eq_ok.1 h
  obtain ⟨comment, -, h⟩ := bind_eq_ok.1 h
  obtain ⟨s, hs, made⟩ := (forall₂_of_mapM read).exists_of_mem hn
  obtain ⟨elements, printed, made⟩ := bind_eq_ok.1 made
  obtain rfl := Except.ok.inj made
  obtain ⟨t, ht, written⟩ := (forall₂_of_mapM printed).exists_of_mem he
  refine ⟨t, _, written, ?_, (Except.ok.inj h).symm⟩
  obtain ⟨a, b, whole⟩ := standsIn_scope (s := ⟨ns.name, ns.useStatements, elements⟩) ht
  obtain ⟨first, last, rfl⟩ := List.append_of_mem hs
  have laid : Template.fileText comment f.strictTypes (first ++ ⟨ns.name, ns.useStatements, elements⟩ :: last) =
      "<?php\n" ++ ((if comment.isEmpty then "" else
        "\n/**\n" ++ (String.join (comment.map fun l => " * " ++ (l ++ "\n")) ++ " */\n")) ++
        ((if f.strictTypes.truthy then "\ndeclare(strict_types=1);\n" else "") ++
          (String.join (first.map Template.Scope.text) ++ a))) ++
      ("\n" ++ (t ++ ("\n" ++ (b ++ String.join (last.map Template.Scope.text))))) := by
    simp only [Template.fileText, List.map_append, List.map_cons, String.join_append, String.join_cons, whole,
      String.append_assoc]
  rw [laid]
  exact .around _ t _

end PhpScaffold.Print
