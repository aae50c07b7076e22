import PhpScaffold.Proofs.Print.Asked
import PhpScaffold.Proofs.Print.Place
import PhpScaffold.Proofs.Text.Ink

namespace PhpScaffold

open Text (ink ink_append ink_le_join ink_le_intercalate ink_join_le_intercalate)
open Except (bind_eq_ok forall₂_of_mapM)

namespace Namespace

/-- Whether a text has room for each of some names as the namespace shortens it. -/
def Shown (ns : Namespace) (names : List String) (t : String) : Prop := ∀ n ∈ names, ink (ns.shorten n) ≤ ink t

variable {ns : Namespace} {names others : List String} {s t : String}

@[simp] theorem shown_nil : ns.Shown [] t := by simp [Shown]

@[simp] theorem shown_append : ns.Shown (names ++ others) t ↔ ns.Shown names t ∧ ns.Shown others t :=
  List.forall_mem_append

theorem Shown.mono (h : ns.Shown names s) (le : ink s ≤ ink t) : ns.Shown names t := fun n hn => (h n hn).trans le

theorem Shown.between (h : ns.Shown names t) (before after : String) : ns.Shown names (before ++ t ++ after) :=
  h.mono (by simp only [ink_append]; omega)

theorem Shown.before (h : ns.Shown names t) (after : String) : ns.Shown names (t ++ after) :=
  h.mono (by simp only [ink_append]; omega)

theorem Shown.behind (h : ns.Shown names t) (before : String) : ns.Shown names (before ++ t) :=
  h.mono (by simp only [ink_append]; omega)

theorem Shown.listed {ts : List String} (h : ns.Shown names (String.join ts)) (between : String) :
    ns.Shown names (between.intercalate ts) := h.mono (ink_join_le_intercalate between ts)

theorem shown_shortName {v w : Value} (h : ns.shortName v = .ok w) : ns.Shown v.text?.toList w.display := by
  cases v with
  | text n => exact List.forall_mem_singleton.2 (congrArg ink (display_of_shortName h)).ge
  | _ => exact shown_nil

theorem shown_shortenType (s : String) : ns.Shown (Name.names s) (ns.shortenType s) := by
  intro n hn
  obtain ⟨token, mem, named⟩ := List.mem_filterMap.1 hn
  cases token with
  | other c => cases named
  | name u =>
    cases named
    obtain ⟨before, after, cut⟩ := List.append_of_mem mem
    have whole : ns.shortenType s = .ofList (((before.map (Name.Token.map ns.shorten)).flatMap Name.Token.text)) ++
        (ns.shorten (.ofList u) ++ .ofList ((after.map (Name.Token.map ns.shorten)).flatMap Name.Token.text)) := by
      rw [← String.toList_inj, shortenType, Name.mapNames_eq, cut]
      simp [Name.Token.map, Name.Token.text]
    rw [whole, ink_append, ink_append]
    omega

theorem shown_mapM {α : Type} {l : List α} {f : α → Except Fault String} {asked : α → List String} {ts : List String}
    (each : ∀ a ∈ l, ∀ t, f a = .ok t → ns.Shown (asked a) t) (h : l.mapM f = .ok ts) :
    ns.Shown (l.flatMap asked) (String.join ts) := by
  intro n hn
  obtain ⟨a, ha, named⟩ := List.mem_flatMap.1 hn
  obtain ⟨t, ht, made⟩ := (forall₂_of_mapM h).exists_of_mem ha
  exact (each a ha t made n named).trans (ink_le_join ht)

end Namespace

namespace Print

open Namespace (shown_nil shown_append shown_shortName shown_mapM)

variable {ns : Namespace} {t : String} {ts : List String}

mutual

theorem shown_value : ∀ (v : Value) {t : String}, value ns v = .ok t → ns.Shown v.classNames t
  | .classReference name, t, h => by
    obtain ⟨w, short, h⟩ := bind_eq_ok.1 h
    rw [← Except.ok.inj h]
    exact (shown_shortName (v := .text name) short).before "::class"
  | .list vs, t, h => by
    obtain ⟨ts, printed, h⟩ := bind_eq_ok.1 h
    rw [← Except.ok.inj h]
    exact ((shown_values vs printed).listed ", ").between "[" "]"
  | .tuple vs, t, h => by
    obtain ⟨ts, printed, h⟩ := bind_eq_ok.1 h
    rw [← Except.ok.inj h]
    exact ((shown_values vs printed).listed ", ").between "[" "]"
  | .dict es, t, h => by
    obtain ⟨ts, printed, h⟩ := bind_eq_ok.1 h
    rw [← Except.ok.inj h]
    exact ((shown_entries es printed).listed ", ").between "[" "]"
  | .null, _, _ => shown_nil
  | .bool _, _, _ => shown_nil
  | .int _, _, _ => shown_nil
  | .float _, _, _ => shown_nil
  | .text _, _, _ => shown_nil
  | .literal _, _, _ => shown_nil
  | .bytes _, _, _ => shown_nil
  | .set _, _, _ => shown_nil
  | .date _, _, _ => shown_nil
  | .moment _, _, _ => shown_nil
  | .again _, _, _ => shown_nil
  | .foreign _, _, _ => shown_nil

theorem shown_values : ∀ (vs : List Value) {ts : List String}, values ns vs = .ok ts →
    ns.Shown (Value.classNamesAll vs) (String.join ts)
  | [], _, _ => shown_nil
  | v :: r, ts, h => by
    obtain ⟨t, first, h⟩ := bind_eq_ok.1 h
    obtain ⟨us, rest, h⟩ := bind_eq_ok.1 h
    rw [← Except.ok.inj h, Value.classNamesAll, shown_append, String.join_cons]
    exact ⟨(shown_value v first).before _, (shown_values r rest).behind t⟩

theorem shown_entries : ∀ (es : List (Value × Value)) {ts : List String}, entries ns es = .ok ts →
    ns.Shown (Value.classNamesEntries es) (String.join ts)
  | [], _, _ => shown_nil
  | (k, v) :: r, ts, h => by
    obtain ⟨key, first, h⟩ := bind_eq_ok.1 h
    obtain ⟨item, second, h⟩ := bind_eq_ok.1 h
    obtain ⟨us, rest, h⟩ := bind_eq_ok.1 h
    rw [← Except.ok.inj h, Value.classNamesEntries, shown_append, shown_append, String.join_cons]
    exact ⟨⟨(((shown_value k first).before _).before _).before _, ((shown_value v second).behind _).before _⟩,
      (shown_entries r rest).behind _⟩

end

theorem ink_le_markNullable (plain : String) : ink plain ≤ ink (markNullable plain) := by
  unfold markNullable
  split
  · exact Nat.le_refl _
  · rw [ink_append]
    omega

theorem ink_join_plainText (w : WrittenType) : ink (String.join (plainText w)) = ink w.plain := by
  rw [plainText]
  split
  · rename_i empty
    rw [String.isEmpty_iff.1 empty]
    rfl
  · simp

theorem ink_le_writeType (s : String) (nullable : Bool) :
    ink s ≤ ink (String.join (plainText (writeType s nullable)) ++ (full (writeType s nullable)).getD "") := by
  rw [ink_append, ink_join_plainText]
  by_cases generic : s.toList.contains '<'
  · simp only [writeType, generic, if_true]
    exact Nat.le_add_left _ _
  · simp only [writeType, generic, Bool.false_eq_true, if_false]
    refine Nat.le_add_right_of_le ?_
    split
    · exact ink_le_markNullable s
    · exact Nat.le_refl _

theorem shown_writeType? {type nullable : Value} {w : Option WrittenType} (h : writeType? ns type nullable = .ok w) :
    ns.Shown type.typeNames (String.join (plainText w) ++ (full w).getD "") := by
  cases type with
  | text s =>
    have names := ns.shown_shortenType (Text.trim Text.isBlank s)
    rw [Name.names_trim fun c => Name.isGap_of_isBlank] at names
    by_cases empty : s.isEmpty
    · obtain rfl := String.isEmpty_iff.1 empty
      rw [show (Value.text "").typeNames = [] from typeNames_empty]
      exact shown_nil
    · simp only [writeType?, empty, Bool.false_eq_true, if_false] at h
      obtain ⟨r, written, h⟩ := bind_eq_ok.1 h
      obtain ⟨pieces, -, written⟩ := bind_eq_ok.1 written
      obtain ⟨strings, -, written⟩ := bind_eq_ok.1 written
      rw [← Except.ok.inj h, ← Except.ok.inj written]
      exact names.mono (ink_le_writeType _ _)
  | _ => exact shown_nil

theorem ink_le_attr (name : String) (arguments : List String) : ink name + ink (String.join arguments) ≤
    ink (if arguments.isEmpty then "#[" ++ name ++ "]"
      else "#[" ++ name ++ "(" ++ ", ".intercalate arguments ++ ")]") := by
  have joined := ink_join_le_intercalate ", " arguments
  split
  · rename_i none
    rw [List.isEmpty_iff.1 none]
    simp only [ink_append, String.join_nil, Text.ink_empty]
    omega
  · simp only [ink_append]
    omega

theorem shown_argument {e : Value × Value} (h : argument ns e = .ok t) : ns.Shown e.2.classNames t := by
  obtain ⟨key, -, h⟩ := bind_eq_ok.1 h
  obtain ⟨item, printed, h⟩ := bind_eq_ok.1 h
  rw [← Except.ok.inj h]
  exact (shown_value e.2 printed).behind _

theorem shown_attr {a : Attribute} (h : attr ns a = .ok t) : ns.Shown a.classNames t := by
  obtain ⟨name, short, h⟩ := bind_eq_ok.1 h
  have named := shown_shortName short
  rw [Attribute.classNames, shown_append]
  cases given : a.arguments with
  | positional vs =>
    simp only [given] at h
    obtain ⟨arguments, printed, h⟩ := bind_eq_ok.1 h
    have room := ink_le_attr name.display arguments
    rw [Arguments.values, ← classNamesAll_eq, ← Except.ok.inj h]
    exact ⟨named.mono (by omega), (shown_values vs printed).mono (by omega)⟩
  | named es =>
    simp only [given] at h
    obtain ⟨arguments, printed, h⟩ := bind_eq_ok.1 h
    have room := ink_le_attr name.display arguments
    rw [Arguments.values, List.flatMap_map, ← Except.ok.inj h]
    exact ⟨named.mono (by omega), (shown_mapM (fun e _ t => shown_argument) printed).mono (by omega)⟩

theorem shown_header {doc : List String} {a : Annotations} (h : header ns doc a.attributes = .ok t) :
    ns.Shown a.classNames t ∧ ∀ l ∈ doc, ink l ≤ ink t := by
  obtain ⟨lines, printed, h⟩ := bind_eq_ok.1 h
  have room : ink (docblock doc) + ink (String.join lines) = ink t := by
    rw [← Except.ok.inj h, Text.ink_join_map fun t => by rw [ink_append]; rfl]
    split
    · rename_i none
      simp [String.isEmpty_iff.1 none]
    · simp
  refine ⟨(shown_mapM (fun b _ t => shown_attr) printed).mono (by omega), fun l hl => ?_⟩
  have line : ink l ≤ ink (docblock doc) := by
    rw [docblock, if_neg (by simpa using List.ne_nil_of_mem hl)]
    have mem := List.mem_map_of_mem (f := fun l : String => if l.isEmpty then " *" else " * " ++ l) hl
    have inside := ink_le_intercalate "\n" mem
    have least : ink l ≤ ink (if l.isEmpty then " *" else " * " ++ l) := by
      split
      · rename_i none
        simp [String.isEmpty_iff.1 none]
      · simp
    simp only [ink_append]
    omega
  omega

theorem shown_annotated {a : Annotations} (h : annotated ns a = .ok t) : ns.Shown a.classNames t := by
  obtain ⟨doc, -, h⟩ := bind_eq_ok.1 h
  exact (shown_header h).1

theorem shown_enumCase {c : EnumCase} (h : enumCase ns c = .ok t) : ns.Shown c.asked t := by
  obtain ⟨lead, tail, front, rfl, none | ⟨start, code, printed, rfl⟩⟩ := enumCase_eq_ok h
  all_goals
    rw [EnumCase.asked, shown_append]
    refine ⟨(shown_annotated front).before _, ?_⟩
  · rw [none]
    exact shown_nil
  · exact ((shown_value _ printed).between start ";").behind lead

theorem shown_constant {c : Constant} (h : constant ns c = .ok t) : ns.Shown c.asked t := by
  obtain ⟨lead, start, code, front, printed, rfl⟩ := constant_eq_ok h
  rw [Constant.asked, shown_append]
  exact ⟨(shown_annotated front).before _, ((shown_value _ printed).between start ";").behind lead⟩

theorem ink_getD_le {whole : Option String} {n : Nat} (h : ∀ s, whole = some s → ink s ≤ n) :
    ink (whole.getD "") ≤ n := by
  cases whole with
  | none => exact Nat.zero_le n
  | some s => exact h s rfl

theorem shown_property {p : Property} (h : property ns p = .ok t) : ns.Shown p.asked t := by
  obtain ⟨comment, type, lead, modifiers, tail, -, written, front, rfl, assigned⟩ := property_eq_ok h
  obtain ⟨front, doc⟩ := shown_header front
  rw [Property.asked, shown_append, shown_append]
  refine ⟨⟨front.before _, (shown_writeType? written).mono ?_⟩, ?_⟩
  · have whole : ink ((full type).getD "") ≤ ink lead := ink_getD_le fun s told => by
      have line := doc ("@var " ++ s) (by simp [told])
      rw [ink_append] at line
      exact (Nat.le_add_left _ _).trans line
    have native := ink_join_le_intercalate " " (modifiers ++ plainText type)
    rw [String.join_append, ink_append] at native
    simp only [ink_append]
    omega
  · cases given : p.value with
    | none => exact shown_nil
    | some v =>
      obtain ⟨start, code, printed, rfl⟩ := assigned v given
      rw [Option.toList_some, List.flatMap_singleton]
      exact (((shown_value v printed).between start ";").behind _).behind lead

theorem shown_parameter {p : Parameter} {w : String × Option String} (h : parameter ns p = .ok w) :
    ns.Shown p.asked (w.1 ++ w.2.getD "") := by
  obtain ⟨attributes, promotion, type, name, note, front, written, default, -, rfl⟩ := parameter_eq_ok h
  have inside := ink_join_le_intercalate " " (attributes ++ promotion ++ plainText type ++ [name])
  simp only [String.join_append, ink_append, String.join_cons, String.join_nil] at inside
  rw [Parameter.asked, shown_append, shown_append]
  refine ⟨⟨(shown_mapM (fun a _ t => shown_attr) front).mono ?_, (shown_writeType? written).mono ?_⟩, ?_⟩
  · simp only [ink_append]
    omega
  · simp only [ink_append]
    omega
  · cases given : p.default with
    | none => exact shown_nil
    | some v =>
      obtain ⟨start, code, printed, rfl⟩ := default v given
      rw [ink_append] at inside
      rw [Option.toList_some, List.flatMap_singleton]
      refine (shown_value v printed).mono ?_
      simp only [ink_append]
      omega

theorem ink_le_signature (start : String) (parameters : List String) (alone : Bool) (returns : String) :
    (∀ p ∈ parameters, ink p ≤ ink (signature start parameters alone returns).text) ∧
      ink returns ≤ ink (signature start parameters alone returns).text := by
  unfold signature
  simp only
  split
  · refine ⟨fun p hp => ?_, ?_⟩
    · have mem : Text.indent (p ++ ",") ∈ [start ++ "("] ++ parameters.map (fun p => Text.indent (p ++ ",")) ++
          [")" ++ returns] := by simpa using .inr (.inl ⟨p, hp, rfl⟩)
      have inside := ink_le_intercalate "\n" mem
      rw [Text.ink_indent, ink_append] at inside
      exact (Nat.le_add_right _ _).trans inside
    · have mem : ")" ++ returns ∈ [start ++ "("] ++ parameters.map (fun p => Text.indent (p ++ ",")) ++
          [")" ++ returns] := by simp
      have inside := ink_le_intercalate "\n" mem
      rw [ink_append] at inside
      exact (Nat.le_add_left _ _).trans inside
  · refine ⟨fun p hp => ?_, ?_⟩
    · have inside := ink_le_intercalate ", " (List.mem_map_of_mem (f := Text.replace '\n' ' ') hp)
      rw [Text.ink_replace] at inside
      simp only [ink_append]
      omega
    · simp only [ink_append]
      omega

theorem shown_parameters {m : Method} {comment : List String} {written : List (String × Option String)}
    {returns : Option WrittenType} {lead head : String} (read : m.parameters.values.mapM (parameter ns) = .ok written)
    (lines : ∀ l ∈ docOf m comment written returns, ink l ≤ ink lead)
    (inside : ∀ p ∈ written.map Prod.fst, ink p ≤ ink head) :
    ns.Shown (m.parameters.values.flatMap Parameter.asked) (lead ++ head) := by
  intro n hn
  obtain ⟨p, hp, named⟩ := List.mem_flatMap.1 hn
  obtain ⟨w, paired, printed⟩ := (forall₂_of_mapM read).exists_mem_zip hp
  have code := inside w.1 (List.mem_map_of_mem (List.of_mem_zip paired).2)
  have whole : ink (w.2.getD "") ≤ ink lead := ink_getD_le fun s generic => by
    have told : "@param " ++ s ++ " $" ++ p.name.display ∈ docOf m comment written returns := by
      refine List.mem_append_left _ (List.mem_append_right _ (List.mem_filterMap.2 ⟨(p, w), paired, ?_⟩))
      simp [generic]
    have line := lines _ told
    simp only [ink_append] at line
    omega
  have shown := shown_parameter printed n named
  simp only [ink_append] at shown ⊢
  omega

theorem ink_join_plainText_le (returns : Option WrittenType) :
    ink (String.join (plainText returns)) ≤ ink ((returns.map (": " ++ ·.plain)).getD "") := by
  cases returns with
  | none => exact Nat.le_refl _
  | some w =>
    rw [ink_join_plainText, Option.map_some, Option.getD_some, ink_append]
    omega

theorem shown_method {m : Method} {bodyless : Bool} (h : method ns bodyless m = .ok t) : ns.Shown m.asked t := by
  obtain ⟨doc, sig, lead, tail, told, headed, front, rfl, -⟩ := method_eq_ok h
  obtain ⟨written, read, headed⟩ := bind_eq_ok.1 headed
  obtain ⟨returns, typed, headed⟩ := bind_eq_ok.1 headed
  obtain rfl := Except.ok.inj headed
  obtain ⟨comment, -, told⟩ := bind_eq_ok.1 told
  rw [read, typed] at told
  obtain rfl := Except.ok.inj told
  obtain ⟨front, lines⟩ := shown_header front
  obtain ⟨inside, last⟩ : (∀ p ∈ written.map Prod.fst, ink p ≤ ink (headOf m written returns).text) ∧
      ink ((returns.map (": " ++ ·.plain)).getD "") ≤ ink (headOf m written returns).text := ink_le_signature _ _ _ _
  have native := ink_join_plainText_le returns
  have whole : ink ((full returns).getD "") ≤ ink lead := ink_getD_le fun s generic => by
    have line := lines ("@return " ++ s) (by simp [docOf, generic])
    rw [ink_append] at line
    exact (Nat.le_add_left _ _).trans line
  rw [Method.asked, shown_append, shown_append, ← String.append_assoc]
  refine ⟨⟨(front.before _).before _, (shown_parameters read lines inside).before _⟩, (shown_writeType? typed).mono ?_⟩
  simp only [ink_append]
  omega

theorem ink_join_le_gather (ls : List String) : ink (String.join ls) ≤ ink (String.join (gather ls)) := by
  unfold gather
  split
  · rename_i none
    rw [List.isEmpty_iff.1 none]
  · simpa using ink_join_le_intercalate "\n" ls

theorem shown_trait {v : Value} (h : (do return "use " ++ (← ns.shortName v).display ++ ";") = Except.ok t) :
    ns.Shown v.text?.toList t := by
  obtain ⟨w, short, h⟩ := bind_eq_ok.1 h
  rw [← Except.ok.inj h]
  exact (shown_shortName short).between "use " ";"

theorem shown_sections {e : Element} {ss : List String} (h : sections ns e = .ok ss) :
    ns.Shown (e.traits.flatMap (·.text?.toList) ++ e.cases.flatMap EnumCase.asked ++
      e.constants.values.flatMap Constant.asked ++ e.properties.flatMap Property.asked ++
      e.methods.values.flatMap Method.asked) (String.join ss) := by
  obtain ⟨traits, cases, constants, properties, methods, used, listed, fixed, held, defined, rfl⟩ := sections_eq_ok h
  have traitLines := ink_join_le_gather traits
  have caseLines := ink_join_le_gather cases
  have constantLines := ink_join_le_gather constants
  simp only [shown_append, String.join_append]
  refine ⟨⟨⟨⟨(shown_mapM (fun v _ t => shown_trait) used).mono ?_,
    (shown_mapM (fun c _ t => shown_enumCase) listed).mono ?_⟩,
    (shown_mapM (fun c _ t => shown_constant) fixed).mono ?_⟩,
    (shown_mapM (fun p _ t => shown_property) held).mono ?_⟩,
    (shown_mapM (fun m _ t => shown_method) defined).mono ?_⟩
  all_goals
    simp only [ink_append]
    omega

theorem eq_of_strung {vs : List Value} (h : strung vs = .ok ts) : ts = vs.map Value.display := by
  have each : vs.zipIdx.Forall₂ (fun e t => e.1.display = t) ts := by
    refine (forall₂_of_mapM h).imp ?_
    rintro ⟨v, i⟩ t made
    cases v <;> cases made
    exact Value.display_text _
  have shown := List.forall₂_eq_eq_eq ▸ List.forall₂_map_left_iff.2 each
  rw [← shown, ← List.zipIdx_map_fst 0 vs, List.map_map]
  simp

theorem shown_shortNames {names vs : List Value} (h : names.mapM ns.shortName = .ok vs) :
    ns.Shown (names.flatMap (·.text?.toList)) (String.join (vs.map Value.display)) := by
  intro n hn
  obtain ⟨v, hv, named⟩ := List.mem_flatMap.1 hn
  obtain ⟨w, hw, short⟩ := (forall₂_of_mapM h).exists_of_mem hv
  exact (shown_shortName short n named).trans (ink_le_join (List.mem_map_of_mem hw))

theorem shown_clause {lead : String} {names vs : List Value} (h : (if names.isEmpty then pure [] else do
    return [.text (lead ++ ", ".intercalate (← strung (← names.mapM ns.shortName)))]) = Except.ok vs) :
    ns.Shown (names.flatMap (·.text?.toList)) (String.join (vs.map Value.display)) := by
  split at h
  · rename_i none
    rw [List.isEmpty_iff.1 none]
    exact shown_nil
  · obtain ⟨ws, short, h⟩ := bind_eq_ok.1 h
    obtain ⟨ts, listed, h⟩ := bind_eq_ok.1 h
    rw [← Except.ok.inj h, eq_of_strung listed]
    have inside := ink_join_le_intercalate ", " (ws.map Value.display)
    refine (shown_shortNames short).mono ?_
    simp only [List.map_singleton, String.join_cons, String.join_nil, Value.display_text, ink_append]
    omega

theorem shown_elementHeader {e : Element} (h : elementHeader ns e = .ok t) :
    ns.Shown ((e.parents ++ e.interfaces).flatMap (·.text?.toList)) t := by
  obtain ⟨parents, extended, h⟩ := bind_eq_ok.1 h
  obtain ⟨interfaces, implemented, h⟩ := bind_eq_ok.1 h
  obtain ⟨words, listed, h⟩ := bind_eq_ok.1 h
  rw [← Except.ok.inj h, eq_of_strung listed, List.flatMap_append, shown_append]
  have extended := shown_clause extended
  have implemented := shown_clause implemented
  constructor
  · refine extended.mono (le_trans ?_ (ink_join_le_intercalate " " _))
    simp only [List.map_append, String.join_append, ink_append]
    omega
  · refine implemented.mono (le_trans ?_ (ink_join_le_intercalate " " _))
    simp only [List.map_append, String.join_append, ink_append]
    omega

theorem shown_element {e : Element} (h : element (.ok Template.elementLayout) ns e = .ok t) : ns.Shown e.asked t := by
  obtain ⟨ss, comment, attributes, header, sectioned, -, front, headed, rfl⟩ := element_eq_ok h
  have lines := Text.ink_join_map (f := (· ++ "\n")) (fun t => by rw [ink_append]; rfl) attributes
  have blocks := Text.ink_join_map (f := fun s => Text.block unit true false s ++ "\n\n")
    (fun s => by rw [ink_append, Text.ink_block]; rfl) ss
  have front := shown_mapM (fun a _ t => shown_attr) front
  have headed := shown_elementHeader headed
  have sectioned := shown_sections sectioned
  rw [List.flatMap_append, shown_append] at headed
  simp only [shown_append] at sectioned
  obtain ⟨⟨⟨⟨traits, cases⟩, constants⟩, properties⟩, methods⟩ := sectioned
  rw [Element.asked, List.filterMap_eq_flatMap_toList]
  simp only [shown_append, List.flatMap_append]
  have whole : ink (String.join attributes) + ink header + ink (String.join ss) ≤
      ink (Template.elementText (docblock comment) attributes header ss) := by
    simp only [Template.elementText, ink_append, lines, blocks]
    omega
  exact ⟨⟨⟨⟨⟨⟨⟨headed.1.mono (by omega), headed.2.mono (by omega)⟩, traits.mono (by omega)⟩, front.mono (by omega)⟩,
    cases.mono (by omega)⟩, constants.mono (by omega)⟩, properties.mono (by omega)⟩, methods.mono (by omega)⟩

end Print

end PhpScaffold
