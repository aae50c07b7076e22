import PhpScaffold.Print.File
import PhpScaffold.Proofs.Model.Plain
import PhpScaffold.Proofs.Print.Type

namespace PhpScaffold

namespace Namespace.HasPlainNames

variable {ns : Namespace} {n : String}

theorem exists_ofTexts (h : ns.HasPlainNames) :
    ∃ scope uses, ns = .ofTexts scope uses ns.elements ∧ ∀ a ∈ uses.values, Text.IsPlain a := by
  obtain ⟨scope, name, -⟩ := h.name.exists_text
  refine ⟨scope, ⟨ns.uses.entries.map fun e => (e.1, e.2.display)⟩, ?_, ?_⟩
  · have entries : ns.uses.entries.map (fun e => (e.1, Value.text e.2.display)) = ns.uses.entries := by
      conv_rhs => rw [← List.map_id ns.uses.entries]
      refine List.map_congr_left fun e he => ?_
      obtain ⟨a, text, -⟩ := (h.uses e he).2.exists_text
      simp [text, Prod.ext_iff]
    obtain ⟨_, ⟨es⟩, _⟩ := ns
    simp_all [Namespace.ofTexts, Table.map, Function.comp_def]
  · intro a ha
    obtain ⟨e, he, rfl⟩ := List.mem_map.1 ha
    obtain ⟨f, hf, rfl⟩ := List.mem_map.1 he
    exact (h.uses f hf).2.display

theorem shortName (h : ns.HasPlainNames) (n : String) : ns.shortName (.text n) = .ok (.text (ns.shorten n)) := by
  obtain ⟨scope, uses, same, -⟩ := h.exists_ofTexts
  rw [same]
  exact shortName_ofTexts n

theorem shorten (h : ns.HasPlainNames) (plain : Text.IsPlain n) : Text.IsPlain (ns.shorten n) := by
  obtain ⟨scope, uses, same, aliases⟩ := h.exists_ofTexts
  have relative : Text.IsPlain (Name.relative n) := plain.trimStart _
  rw [Namespace.shorten]
  split
  · exact plain
  · dsimp only
    split
    · rename_i aliasName found
      rw [same, aliasOf?_ofTexts, Option.map_eq_some_iff] at found
      obtain ⟨a, used, rfl⟩ := found
      have entry := Table.mem_of_get? (Option.eq_some_of_filter_eq_some used)
      simpa using aliases a (List.mem_map_of_mem entry)
    · rename_i rest _ direct
      rw [same] at direct
      rw [(eq_of_member? direct).2.1] at relative
      exact (Text.isPlain_append.1 relative).2
    · exact Text.isPlain_append.2 ⟨by decide, relative⟩

theorem shortenType (h : ns.HasPlainNames) {expression : String} (plain : Text.IsPlain expression) :
    Text.IsPlain (ns.shortenType expression) := by
  intro c hc
  rw [Namespace.shortenType, Name.mapNames, String.toList_ofList, List.mem_flatMap] at hc
  obtain ⟨token, mem, hc⟩ := hc
  have within : Text.IsPlain (.ofList token.text) := by
    intro d hd
    rw [String.toList_ofList] at hd
    refine plain d ?_
    rw [← Name.flatMap_text_tokens expression.toList]
    exact List.mem_flatMap.2 ⟨token, mem, hd⟩
  cases token with
  | name t => exact h.shorten within c hc
  | other d => exact within c (by simpa [Name.Token.text] using hc)

theorem typeText (h : ns.HasPlainNames) (expression : String) :
    Print.typeText ns expression = .ok (ns.shortenType expression) := by
  obtain ⟨scope, uses, same, -⟩ := h.exists_ofTexts
  rw [same]
  exact Print.typeText_ofTexts expression

end Namespace.HasPlainNames

@[simp] theorem Visibility.isPlain_keyword (v : Visibility) : Text.IsPlain v.keyword := by
  cases v <;> decide

@[simp] theorem Kind.isPlain_keyword (k : Kind) : Text.IsPlain k.keyword := by
  cases k <;> decide

@[simp] theorem Backing.isPlain_keyword (b : Backing) : Text.IsPlain b.keyword := by
  cases b <;> decide

namespace Print

open Text (IsPlain ArePlain)

variable {ns : Namespace}

theorem isPlain_escapeText {s : String} (plain : IsPlain s) : IsPlain (escapeText s) := by
  intro c hc
  rw [escapeText, String.toList_ofList, List.mem_flatMap] at hc
  obtain ⟨d, hd, hc⟩ := hc
  split at hc
  · obtain rfl | hc := List.mem_cons.1 hc
    · decide
    · obtain rfl := List.mem_singleton.1 hc
      exact plain c hd
  · obtain rfl := List.mem_singleton.1 hc
    exact plain c hd

mutual

theorem value_yields (h : ns.HasPlainNames) : ∀ v : Value, v.IsPrintable → (value ns v).Yields IsPlain
  | .null, _ => by
    rw [value]
    exact Except.yields_ok.2 (by decide)
  | .bool b, _ => by
    rw [value]
    exact Except.yields_ok.2 (by cases b <;> decide)
  | .int n, short => by
    rw [Value.IsPrintable] at short
    rw [value, short]
    exact Except.yields_ok.2 (Decimal.isPlain_toString n)
  | .float x, _ => by
    rw [value]
    exact Except.yields_ok.2 (Decimal.isPlain_ofFloat x)
  | .text s, plain => by
    rw [value]
    rw [Value.IsPrintable] at plain
    exact Except.yields_ok.2 (by simp +decide [isPlain_escapeText plain])
  | .literal code, plain => by
    rw [value]
    rw [Value.IsPrintable] at plain
    exact Except.yields_ok.2 plain
  | .classReference name, plain => by
    rw [value, h.shortName, Except.ok_bind]
    rw [Value.IsPrintable] at plain
    exact Except.yields_ok.2 (by simp +decide [h.shorten plain])
  | .list vs, plain => by
    rw [value]
    exact (values_yields h vs (by simpa [Value.IsPrintable] using plain)).bind fun ts listed =>
      Except.yields_ok.2 (by simp +decide [listed])
  | .tuple vs, plain => by
    rw [value]
    exact (values_yields h vs (by simpa [Value.IsPrintable] using plain)).bind fun ts listed =>
      Except.yields_ok.2 (by simp +decide [listed])
  | .dict es, plain => by
    rw [value]
    exact (entries_yields h es (by simpa [Value.IsPrintable] using plain)).bind fun ts listed =>
      Except.yields_ok.2 (by simp +decide [listed])

theorem values_yields (h : ns.HasPlainNames) :
    ∀ vs : List Value, Value.ArePrintable vs → (values ns vs).Yields ArePlain
  | [], _ => by
    rw [values]
    exact Except.yields_ok.2 (by simp)
  | v :: r, plain => by
    rw [Value.ArePrintable] at plain
    rw [values]
    exact (value_yields h v plain.1).bind fun t first => (values_yields h r plain.2).bind fun ts rest =>
      Except.yields_ok.2 (Text.arePlain_cons.2 ⟨first, rest⟩)

theorem entries_yields (h : ns.HasPlainNames) :
    ∀ es : List (Value × Value), Value.EntriesPrintable es → (entries ns es).Yields ArePlain
  | [], _ => by
    rw [entries]
    exact Except.yields_ok.2 (by simp)
  | (k, v) :: r, plain => by
    rw [Value.EntriesPrintable] at plain
    obtain ⟨key, value, rest⟩ := plain
    rw [entries]
    exact (value_yields h k key).bind fun t key => (value_yields h v value).bind fun u value =>
      (entries_yields h r rest).bind fun ts rest =>
        Except.yields_ok.2 (Text.arePlain_cons.2 ⟨by simp +decide [key, value], rest⟩)

end

theorem commentLines_yields {comment : Value} (plain : comment.IsPlainOrNull) :
    (commentLines comment).Yields ArePlain := by
  cases comment with
  | null => exact Except.yields_ok.2 (by simp)
  | text s => exact Except.yields_ok.2 (Text.arePlain_lines s)
  | _ => exact plain.elim

theorem isPlain_docblock {ls : List String} (plain : ArePlain ls) : IsPlain (docblock ls) := by
  have lines : ArePlain (ls.map fun l => if l.isEmpty then " *" else " * " ++ l) :=
    Text.arePlain_map.2 fun l hl => Text.isPlain_ite (by decide) (Text.isPlain_append.2 ⟨by decide, plain l hl⟩)
  have joined := Text.isPlain_intercalate (show IsPlain "\n" by decide) lines
  rw [docblock]
  split
  · decide
  · exact Text.isPlain_append.2 ⟨Text.isPlain_append.2 ⟨by decide, joined⟩, by decide⟩

theorem argument_yields (h : ns.HasPlainNames) {e : Value × Value} (key : e.1.IsPlain) (value : e.2.IsPrintable) :
    (argument ns e).Yields IsPlain := by
  obtain ⟨s, named, plain⟩ := key.exists_text
  rw [argument, named, Value.shown_text, Except.ok_bind]
  exact (value_yields h e.2 value).bind fun t written => Except.yields_ok.2 (by simp +decide [plain, written])

theorem attr_yields (h : ns.HasPlainNames) {a : Attribute} (plain : a.IsPlain) : (attr ns a).Yields IsPlain := by
  obtain ⟨name, arguments⟩ := a
  obtain ⟨n, rfl, named⟩ := plain.name.exists_text
  have finish {ts : List String} (listed : ArePlain ts) : IsPlain (if ts.isEmpty then "#[" ++ ns.shorten n ++ "]"
      else "#[" ++ ns.shorten n ++ "(" ++ ", ".intercalate ts ++ ")]") := by
    split <;> simp +decide [h.shorten named, listed]
  rw [attr, h.shortName, Except.ok_bind, Value.display_text]
  cases arguments with
  | positional vs =>
    exact (values_yields h vs plain.arguments).bind fun ts listed => Except.yields_ok.2 (finish listed)
  | named es =>
    have all : (es.mapM (argument ns)).Yields ArePlain := Except.Yields.mapM_all fun e he =>
      argument_yields h (plain.arguments e he).1 (plain.arguments e he).2
    exact all.bind fun ts listed => Except.yields_ok.2 (finish listed)

theorem header_yields (h : ns.HasPlainNames) {doc : List String} {attributes : List Attribute}
    (lines : ArePlain doc) (plain : ∀ a ∈ attributes, a.IsPlain) :
    (header ns doc attributes).Yields IsPlain := by
  have block : ArePlain (if (docblock doc).isEmpty then [] else [docblock doc]) := by
    split <;> simp [isPlain_docblock lines]
  have attributed : (attributes.mapM (attr ns)).Yields ArePlain :=
    Except.Yields.mapM_all fun a ha => attr_yields h (plain a ha)
  refine attributed.bind fun ts written => Except.yields_ok.2 ?_
  have all : ArePlain ((if (docblock doc).isEmpty then [] else [docblock doc]) ++ ts) :=
    Text.arePlain_append.2 ⟨block, written⟩
  exact Text.isPlain_join.2 (Text.arePlain_map.2 fun t ht => Text.isPlain_append.2 ⟨all t ht, by decide⟩)

theorem annotated_yields (h : ns.HasPlainNames) {a : Annotations} (plain : a.IsPlain) :
    (annotated ns a).Yields IsPlain :=
  (commentLines_yields plain.comment).bind fun _ lines => header_yields h lines plain.attributes

theorem enumCase_yields (h : ns.HasPlainNames) {c : EnumCase} (plain : c.IsPlain) : (enumCase ns c).Yields IsPlain := by
  refine (annotated_yields h plain.annotations).bind fun lead front => ?_
  split
  · exact Except.yields_ok.2 (by simp +decide [front, plain.name.display])
  · refine (value_yields h _ plain.value).bind fun value written => Except.yields_ok.2 ?_
    simp +decide [front, plain.name.display, written]

theorem arePlain_word {flag : Value} {text : String} (plain : IsPlain text) : ArePlain (word flag text) := by
  rw [word]
  split <;> simp [plain]

theorem arePlain_visibility (v : Option Visibility) : ArePlain (v.map Visibility.keyword).toList := by
  cases v <;> simp

theorem constant_yields (h : ns.HasPlainNames) {c : Constant} (plain : c.IsPlain) : (constant ns c).Yields IsPlain := by
  refine (annotated_yields h plain.annotations).bind fun lead front => ?_
  refine (value_yields h _ plain.value).bind fun value written => Except.yields_ok.2 ?_
  simp +decide [front, written, plain.name.display, arePlain_word, arePlain_visibility]

theorem isPlain_markNullable {plain : String} (h : IsPlain plain) : IsPlain (markNullable plain) := by
  rw [markNullable]
  split
  · exact h
  · simp +decide [h]

structure WrittenType.IsPlain (w : WrittenType) : Prop where
  plain : Text.IsPlain w.plain
  full : ∀ t ∈ w.full, Text.IsPlain t

theorem writeType_plain {s : String} (plain : IsPlain s) (nullable : Bool) : (writeType s nullable).IsPlain := by
  have mark {t : String} (h : IsPlain t) : IsPlain (if nullable then markNullable t else t) :=
    Text.isPlain_ite (isPlain_markNullable h) h
  rw [writeType]
  dsimp only
  split
  · have front : IsPlain (.ofList (s.toList.takeWhile (· ≠ '<'))) :=
      plain.of_subset (by simpa using (List.takeWhile_prefix _).subset)
    exact ⟨mark (front.trim _), by simpa using plain⟩
  · exact ⟨mark plain, by simp⟩

theorem writeType?_yields (h : ns.HasPlainNames) {type : Value} (plain : type.IsPlainOrNull) (nullable : Value) :
    (writeType? ns type nullable).Yields fun t => ∀ w ∈ t, w.IsPlain := by
  cases type with
  | null => exact Except.yields_ok.2 (by simp)
  | text s =>
    rw [writeType?, h.typeText, Except.ok_bind]
    split
    · exact Except.yields_ok.2 (by simp)
    · refine Except.yields_ok.2 fun w hw => ?_
      obtain rfl := Option.some.inj hw
      exact writeType_plain (h.shortenType (plain.trim _)) _
  | _ => exact plain.elim

variable {t : Option WrittenType}

theorem arePlain_plainText (plain : ∀ w ∈ t, w.IsPlain) : ArePlain (plainText t) := by
  cases t with
  | none => exact Text.arePlain_nil
  | some w =>
    rw [plainText]
    split <;> simp [(plain w rfl).plain]

theorem isPlain_full (plain : ∀ w ∈ t, w.IsPlain) : ∀ s ∈ full t, IsPlain s := by
  cases t with
  | none => simp [full]
  | some w => exact (plain w rfl).full

theorem arePlain_full (plain : ∀ w ∈ t, w.IsPlain) {lead : String} (first : IsPlain lead) :
    ArePlain ((full t).toList.map (lead ++ ·)) :=
  Text.arePlain_map.2 fun s hs => Text.isPlain_append.2 ⟨first, isPlain_full plain s (by simpa using hs)⟩

theorem property_yields (h : ns.HasPlainNames) {p : Property} (plain : p.IsPlain) : (property ns p).Yields IsPlain := by
  refine (commentLines_yields plain.annotations.comment).bind fun comment lines => ?_
  refine (writeType?_yields h plain.type p.nullable).bind fun type written => ?_
  have doc : ArePlain (comment ++ (full type).toList.map ("@var " ++ ·)) :=
    Text.arePlain_append.2 ⟨lines, arePlain_full written (by decide)⟩
  refine (header_yields h doc plain.annotations.attributes).bind fun lead front => ?_
  have line : IsPlain (" ".intercalate ([p.visibility.keyword] ++ word p.isStatic "static" ++
      word p.isReadonly "readonly" ++ plainText type) ++ " $" ++ p.name.display) := by
    simp +decide [plain.name.display, arePlain_word, arePlain_plainText written]
  dsimp only
  split
  · exact Except.yields_ok.2 (by simp +decide only [Text.isPlain_append, front, line])
  · rename_i v value
    refine (value_yields h v (plain.value v value)).bind fun value shown => Except.yields_ok.2 ?_
    simp +decide only [Text.isPlain_append, front, line, shown]

theorem remark_yields {comment : Value} (plain : comment.IsPlainOrNull) : (remark comment).Yields IsPlain := by
  cases comment with
  | null => exact Except.yields_ok.2 (by decide)
  | text s =>
    rw [remark]
    split
    · exact Except.yields_ok.2 (by decide)
    · exact (commentLines_yields plain).bind fun lines plain => Except.yields_ok.2 (by simp +decide [plain])
  | _ => exact plain.elim

theorem parameter_yields (h : ns.HasPlainNames) {p : Parameter} (plain : p.IsPlain) :
    (parameter ns p).Yields fun w => IsPlain w.1 ∧ ∀ t ∈ w.2, IsPlain t := by
  have attributes : (p.annotations.attributes.mapM (attr ns)).Yields ArePlain :=
    Except.Yields.mapM_all fun a ha => attr_yields h (plain.annotations.attributes a ha)
  refine attributes.bind fun attributes listed => ?_
  refine (writeType?_yields h plain.type p.nullable).bind fun type written => ?_
  have name : IsPlain (String.join (word p.byReference "&" ++ word p.variadic "...") ++ "$" ++ p.name.display) := by
    simp +decide [arePlain_word, plain.name.display]
  have finish {promotion : List String} {name : String} (first : ArePlain promotion) (shown : IsPlain name) :
      (do return ((← remark p.annotations.comment) ++
          " ".intercalate (attributes ++ promotion ++ plainText type ++ [name]), full type) :
        Except Fault (String × Option String)).Yields fun w => IsPlain w.1 ∧ ∀ t ∈ w.2, IsPlain t := by
    refine (remark_yields plain.annotations.comment).bind fun lead front => Except.yields_ok.2 ?_
    refine ⟨?_, isPlain_full written⟩
    simp +decide [front, listed, first, arePlain_plainText written, shown]
  cases value : p.default with
  | none =>
    refine finish ?_ name
    split <;> simp +decide [arePlain_word]
  | some v =>
    refine (value_yields h v (plain.default v value)).bind fun value shown => finish ?_ ?_
    · split <;> simp +decide [arePlain_word]
    · simp +decide only [Text.isPlain_append, name, shown]

theorem isPlain_signature {start returns : String} {parameters : List String} (alone : Bool) (front : IsPlain start)
    (plain : ArePlain parameters) (back : IsPlain returns) :
    IsPlain (signature start parameters alone returns).text := by
  have inline : ArePlain (parameters.map (Text.replace '\n' ' ')) :=
    Text.arePlain_map.2 fun t ht => (plain t ht).replace (by decide)
  have wrapped : ArePlain (parameters.map fun p => Text.indent (p ++ ",")) :=
    Text.arePlain_map.2 fun t ht => Text.IsPlain.indent (Text.isPlain_append.2 ⟨plain t ht, by decide⟩)
  rw [signature]
  split
  · simp +decide only [Text.isPlain_intercalate, Text.arePlain_append, Text.arePlain_cons, Text.arePlain_nil,
      Text.isPlain_append, front, wrapped, back]
  · simp +decide only [Text.isPlain_intercalate, Text.isPlain_append, front, inline, back]

theorem body_yields {text : Value} (plain : text.IsPlainOrNull) : (body text).Yields IsPlain := by
  cases text with
  | null => exact Except.yields_ok.2 (by decide)
  | text s =>
    have shifted : IsPlain (Text.indent (Text.trimEnd Text.isBlank s)) := (Text.IsPlain.trimEnd plain _).indent
    refine Except.yields_ok.2 (Text.isPlain_ite (by decide) (Text.isPlain_append.2 ⟨shifted, by decide⟩))
  | _ => exact plain.elim

theorem arePlain_methodModifiers (m : Method) : ArePlain (methodModifiers m) := by
  rw [methodModifiers]
  split <;> simp +decide [arePlain_word]

theorem arePlain_params {ps : List Parameter} {written : List (String × Option String)}
    (named : ∀ p ∈ ps, p.IsPlain) (shown : ∀ w ∈ written, ∀ t ∈ w.2, IsPlain t) :
    ArePlain ((ps.zip written).filterMap fun (p, w) => w.2.map fun t => "@param " ++ t ++ " $" ++ p.name.display) := by
  intro t ht
  obtain ⟨⟨p, w⟩, mem, line⟩ := List.mem_filterMap.1 ht
  obtain ⟨u, full, rfl⟩ := Option.map_eq_some_iff.1 line
  obtain ⟨hp, hw⟩ := List.of_mem_zip mem
  simp +decide only [Text.isPlain_append, shown w hw u full, (named p hp).name.display]

theorem method_yields (h : ns.HasPlainNames) (bodyless : Bool) {m : Method} (plain : m.IsPlain) :
    (method ns bodyless m).Yields IsPlain := by
  refine (commentLines_yields plain.annotations.comment).bind fun comment lines => ?_
  have parameters : (m.parameters.values.mapM (parameter ns)).Yields fun ws =>
      ∀ w ∈ ws, IsPlain w.1 ∧ ∀ t ∈ w.2, IsPlain t :=
    Except.Yields.mapM_all fun p hp => parameter_yields h (plain.parameters p hp)
  refine parameters.bind fun written shown => ?_
  refine (writeType?_yields h plain.returnType m.returnNullable).bind fun returns returned => ?_
  have params := arePlain_params plain.parameters fun w hw => (shown w hw).2
  have back : ArePlain ((full returns).toList.map ("@return " ++ ·)) := arePlain_full returned (by decide)
  have doc := Text.arePlain_append.2 ⟨Text.arePlain_append.2 ⟨lines, params⟩, back⟩
  have start : IsPlain (" ".intercalate (methodModifiers m) ++ " function " ++ m.name.display) := by
    simp +decide [arePlain_methodModifiers, plain.name.display]
  have back : IsPlain ((returns.map (": " ++ ·.plain)).getD "") := by
    cases returns with
    | none => decide
    | some w => simp +decide [(returned w rfl).plain]
  have head (alone : Bool) := isPlain_signature alone start (Text.arePlain_map.2 fun w hw => (shown w hw).1) back
  refine (header_yields h doc plain.annotations.attributes).bind fun lead front => ?_
  split
  · exact Except.yields_ok.2 (by simp +decide only [Text.isPlain_append, front, head])
  · refine (body_yields plain.body).bind fun body inside => Except.yields_ok.2 ?_
    split <;> simp +decide only [Text.isPlain_append, front, head, inside]

theorem exists_texts {vs : List Value} (plain : ∀ v ∈ vs, v.IsPlain) :
    ∃ ts, vs = ts.map Value.text ∧ ArePlain ts := by
  induction vs with
  | nil => exact ⟨[], rfl, Text.arePlain_nil⟩
  | cons v r ih =>
    obtain ⟨first, rest⟩ := List.forall_mem_cons.1 plain
    obtain ⟨t, rfl, shown⟩ := first.exists_text
    obtain ⟨ts, rfl, later⟩ := ih rest
    exact ⟨t :: ts, rfl, Text.arePlain_cons.2 ⟨shown, later⟩⟩

theorem strung_yields {vs : List Value} (plain : ∀ v ∈ vs, v.IsPlain) : (strung vs).Yields ArePlain := by
  obtain ⟨ts, rfl, shown⟩ := exists_texts plain
  rw [strung_map_text]
  exact Except.yields_ok.2 shown

theorem shortName_yields (h : ns.HasPlainNames) {name : Value} (plain : name.IsPlain) :
    (ns.shortName name).Yields Value.IsPlain := by
  obtain ⟨n, rfl, named⟩ := plain.exists_text
  rw [h.shortName]
  exact Except.yields_ok.2 (h.shorten named)

theorem clause_yields (h : ns.HasPlainNames) {lead : String} (first : IsPlain lead) {names : List Value}
    (plain : ∀ n ∈ names, n.IsPlain) : (if names.isEmpty then pure [] else do
      return [.text (lead ++ ", ".intercalate (← strung (← names.mapM ns.shortName)))] :
      Except Fault (List Value)).Yields fun vs => ∀ v ∈ vs, v.IsPlain := by
  split
  · exact Except.yields_ok.2 (by simp)
  · have short : (names.mapM ns.shortName).Yields fun vs => ∀ v ∈ vs, v.IsPlain :=
      Except.Yields.mapM_all fun n hn => shortName_yields h (plain n hn)
    refine short.bind fun vs shown => (strung_yields shown).bind fun ts listed => Except.yields_ok.2 ?_
    simp +decide [Value.IsPlain, first, listed]

theorem elementHeader_yields (h : ns.HasPlainNames) {e : Element} (plain : e.IsPlain) :
    (elementHeader ns e).Yields IsPlain := by
  have names (n : Value) (hn : n ∈ e.parents ∨ n ∈ e.interfaces) : n.IsPlain :=
    plain.names n (List.mem_append_left _ (List.mem_append.2 hn))
  refine (clause_yields h (by decide) fun n hn => names n (.inl hn)).bind fun parents first => ?_
  refine (clause_yields h (by decide) fun n hn => names n (.inr hn)).bind fun interfaces second => ?_
  refine Except.Yields.bind (strung_yields ?_) fun ts listed => Except.yields_ok.2 (by simp +decide [listed])
  refine List.forall_mem_append.2 ⟨List.forall_mem_append.2 ⟨List.forall_mem_append.2 ⟨?_, ?_⟩, first⟩, second⟩
  · refine List.forall_mem_map.2 ?_
    change ArePlain _
    split <;> simp +decide [arePlain_word]
  · refine List.forall_mem_cons.2 ⟨Kind.isPlain_keyword _, List.forall_mem_singleton.2 ?_⟩
    split
    · exact Text.isPlain_append.2 ⟨Text.isPlain_append.2 ⟨plain.name.display, by decide⟩, Backing.isPlain_keyword _⟩
    · exact plain.name

end Print

end PhpScaffold
