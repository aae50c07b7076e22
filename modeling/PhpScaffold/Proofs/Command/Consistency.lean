import PhpScaffold.Command.Registry
import PhpScaffold.Proofs.Command.Layout

namespace PhpScaffold

open Name

namespace Namespace

variable {scope : String} {uses : Table String} {elements : Roster Element}

theorem refers_alias {front short aliasName : String} (segment : Name.IsSegment aliasName) (filled : front ≠ "")
    (last : Name.IsSegment short) (used : (front ++ "\\" ++ short, aliasName) ∈ uses.entries)
    (alone : ∀ u ∈ uses.entries, Name.folded u.2 = Name.folded aliasName → u.1 = front ++ "\\" ++ short) :
    (ofTexts scope uses elements).refers aliasName = Name.folded (front ++ "\\" ++ short) := by
  rw [refers_segment segment]
  cases capture : (ofTexts scope uses elements).capturing aliasName with
  | none =>
    have named : (ofTexts scope uses elements).name.display = scope := by simp [ofTexts]
    rw [named, join_of_capturing_eq_none filled last used capture]
    rfl
  | some i =>
    have like : Name.folded i.aliasName = Name.folded aliasName := by
      simpa using List.find?_some capture
    have entry := ((mem_imports_ofTexts scope uses elements).1 (List.mem_of_find?_eq_some capture)).1
    have same := alone _ entry like
    dsimp only at same
    rw [Option.map_some, Option.getD_some, same]

theorem found_by_end {n x : String} (ends : EndsIn n x) (entry : (n, x) ∈ uses.entries) (distinct : uses.values.Nodup)
    (alone : ∀ u ∈ uses.entries, Name.folded u.2 = Name.folded x → u.1 = n) :
    let ns := ofTexts scope uses elements
    Name.meaning ns.name.display ns.imports x = n ∧ ns.refers x = Name.folded n := by
  intro ns
  have named : ns.name.display = scope := by simp [ns, ofTexts]
  have segment := ends.last.isSegment
  obtain ⟨front, filled, rfl, -⟩ := ends.splitLast
  exact ⟨named ▸ meaning_alias distinct entry segment filled segment,
    refers_alias segment filled segment entry alone⟩

end Namespace

def Artifact.Holds (a : Artifact) (ns : Namespace) (e : Element) : Prop :=
  a.file.namespaces.values = [ns] ∧ ns.elements.values = [e] ∧ ns.qualify e.name = .text a.name

namespace Command

def Built (artifacts : List Artifact) (name : String) (ns : Namespace) (e : Element) : Prop :=
  ∃ a ∈ artifacts, a.name = name ∧ a.Holds ns e

/-- What holds of all that is built for an operation. -/
structure Consistent (o : Operation) (artifacts : List Artifact) : Prop where
  distinct : (artifacts.map Artifact.name).Nodup
  held : ∀ a ∈ artifacts, ∃ ns e, a.Holds ns e
  closed : ∀ a ∈ artifacts, ∀ ns e, a.Holds ns e → ∀ n ∈ e.mentions, Inside n → ∃ b ∈ artifacts, b.name = n ∧ n ≠ a.name
  aliased : ∀ a ∈ artifacts, ∀ ns e, a.Holds ns e → ∀ u ∈ ns.uses.entries, u.2 = .text (Name.last u.1)
  implements : ∃ ns i ns' c m m', Built artifacts o.handlerInterface ns i ∧ Built artifacts o.implementation ns' c ∧
    i.kind = .interface ∧ .text o.handlerInterface ∈ c.interfaces ∧
    i.methods.get? "handle" = some m ∧ c.methods.get? "handle" = some m' ∧
    m'.parameters = m.parameters ∧ m'.returnType = m.returnType ∧ m'.returnNullable = m.returnNullable
  resolves : ∃ ns e m field written, Built artifacts o.test ns e ∧ e.methods.get? "setUp" = some m ∧
    m.body = .text ("parent::setUp();\n\n$this->" ++ field ++ " = $this->app->make(" ++ written ++ "::class);") ∧
    IsIdentifier written.toList ∧ Name.meaning ns.name.display ns.imports written = o.implementation ∧
    ns.refers written = Name.folded o.implementation

namespace Piece

variable {p : Piece} {x : String} {names : List (String × String)} {strictTypes : Bool} {a : Artifact} {ns : Namespace}
  {e : Element}

def element (p : Piece) : Element := p.shape (.bare p.kind (Name.short p.name))

theorem Makes.holds (h : p.Makes strictTypes a) (refers : p.Refers x names) :
    a.Holds (.ofTexts (Name.scope p.name) ⟨names⟩ ⟨[(.text (Name.short p.name), p.element)]⟩) p.element := by
  obtain ⟨uses, file, used⟩ := h.file
  obtain rfl : uses = ⟨names⟩ := congrArg Table.mk (refers.entries_eq used)
  refine ⟨by rw [file]; rfl, rfl, ?_⟩
  obtain ⟨scope, filled, whole, cut⟩ := refers.own.splitLast
  obtain ⟨front, back⟩ := Prod.mk.inj (refers.own.scope_short.trans cut)
  have named : p.element.name = .text x := (refers.kept _).2.trans (congrArg Value.text back)
  rw [named, front, h.name, whole]
  simp [Namespace.qualify, Namespace.ofTexts, Value.truthy, filled, Name.join]

theorem holds_unique {ns' : Namespace} {e' : Element} (h : a.Holds ns e) (h' : a.Holds ns' e') : ns' = ns ∧ e' = e := by
  obtain ⟨one, this, -⟩ := h
  obtain ⟨only, that, -⟩ := h'
  obtain rfl : ns' = ns := by simpa using only.symm.trans one
  exact ⟨rfl, by simpa using that.symm.trans this⟩

end Piece

theorem Operation.folded_ne_implementation (o : Operation) : ∀ x ∈ ["TestCase", "RefreshDatabase"],
    Name.folded x ≠ Name.folded (o.subject ++ (o.side.word ++ "HandlerImplementation")) := by
  have apart (s : Side) : ∀ x ∈ ["TestCase", "RefreshDatabase"],
      ¬ (Name.folded (s.word ++ "HandlerImplementation")).toList <:+ (Name.folded x).toList := by
    cases s <;> decide
  intro x hx same
  refine apart o.side x hx ?_
  rw [same, Name.folded_append o.subject, String.toList_append]
  exact List.suffix_append _ _

namespace Layout

variable {l : Layout} {strictTypes : Bool} {artifacts : List Artifact}

theorem Sound.consistent (h : l.Sound) (made : l.pieces.Forall₂ (Piece.Makes strictTypes) artifacts) :
    Consistent l.operation artifacts := by
  have names : artifacts.map Artifact.name = l.pieces.map Piece.name := by
    have same : (artifacts.map Artifact.name).Forall₂ (· = ·) (l.pieces.map Piece.name) :=
      List.forall₂_map_left_iff.2 (List.forall₂_map_right_iff.2 (made.flip.imp fun _ _ makes => makes.name))
    rwa [List.forall₂_eq_eq_eq] at same
  have back : ∀ a ∈ artifacts, ∃ p ∈ l.pieces, p.Makes strictTypes a := fun a ha => made.flip.exists_of_mem ha
  have built {p : Piece} (hp : p ∈ l.pieces) {x : String} {names : List (String × String)} (refers : p.Refers x names) :
      Built artifacts p.name (.ofTexts (Name.scope p.name) ⟨names⟩ ⟨[(.text (Name.short p.name), p.element)]⟩)
        p.element := by
    obtain ⟨a, ha, makes⟩ := made.exists_of_mem hp
    exact ⟨a, ha, makes.name, makes.holds refers⟩
  constructor
  case distinct =>
    rw [names]
    exact h.nodup_names
  case held =>
    intro a ha
    obtain ⟨p, hp, makes⟩ := back a ha
    obtain ⟨x, names, refers, -⟩ := h.refers p hp
    exact ⟨_, _, makes.holds refers⟩
  case closed =>
    intro a ha ns e holds n hn inside
    obtain ⟨p, hp, makes⟩ := back a ha
    obtain ⟨x, imported, refers, laidOut⟩ := h.refers p hp
    obtain ⟨rfl, rfl⟩ := Piece.holds_unique (makes.holds refers) holds
    have mentioned := refers.mentions _ n hn inside
    have there := laidOut n mentioned inside
    rw [← names] at there
    obtain ⟨b, hb, same⟩ := List.mem_map.1 there
    exact ⟨b, hb, same, makes.name ▸ refers.ne_own n mentioned⟩
  case aliased =>
    intro a ha ns e holds u hu
    obtain ⟨p, hp, makes⟩ := back a ha
    obtain ⟨x, imported, refers, -⟩ := h.refers p hp
    obtain ⟨rfl, rfl⟩ := Piece.holds_unique (makes.holds refers) holds
    obtain ⟨n, hn, rfl⟩ := List.mem_map.1 hu
    rw [← (refers.full n hn).last_eq]
  case implements =>
    refine ⟨_, _, _, _, l.handle l.comment .null, l.handle "@inheritdoc" l.body, built List.mem_cons_self h.interface,
      built (by simp [pieces]) h.implementation, rfl, ?_, ?_, ?_, rfl, rfl, rfl⟩
    · exact List.mem_singleton_self _
    · exact Roster.get?_insert_self {} (.text "handle") _ (by simp)
    · have methods : l.implementationPiece.element.methods = _ := methods_implementationShape l.operation _ rfl
      rw [methods]
      simp [Roster.get?, Value.lookup]
  case resolves =>
    have implementation := h.named.implementation
    refine ⟨_, _, setUp l.operation l.field, l.field, _, built (by simp [pieces]) h.test, ?_, rfl, ?_⟩
    · have methods : l.testPiece.element.methods = _ := methods_testShape l.operation l.field h.success
      rw [methods]
      simp [Roster.get?, Value.lookup, testMethods, setUp, voidMethod]
    · rw [implementation.last_eq]
      refine ⟨implementation.last, Namespace.found_by_end implementation ?_ ?_ ?_⟩
      · exact List.mem_of_mem_tail (List.mem_of_mem_tail List.mem_cons_self)
      · exact (List.nodup_cons.1 h.test.apart).2
      · have other := l.operation.folded_ne_implementation
        refine List.forall_mem_cons.2 ⟨fun like => absurd like (other _ (by decide)), List.forall_mem_cons.2
          ⟨fun like => absurd like (other _ (by decide)), List.forall_mem_singleton.2 fun _ => rfl⟩⟩

end Layout

def queryLayout (o : Operation) (plain : Bool) : Layout where
  operation := o
  takes := if plain then none else some ("query", o.message)
  returns := o.result
  comment := "Execute the query and return the result"
  carriers := (if plain then [] else [(o.side.word, constructor (promoted "id" "int" .pub "Entity ID")
      "Query constructor with parameters" "// TODO: Add query parameters as needed")]) ++
    [("Result", constructor (promoted "data" "mixed" .pub "Query result data") "Result constructor with data"
      "// TODO: Add result properties as needed")]
  body := "// TODO: Implement query logic"
  field := "queryHandler"
  success := ("testHandleReturnsExpectedResult", "// TODO: Implement test for successful query execution")

def commandLayout (o : Operation) (plain answers : Bool) : Layout where
  operation := o
  takes := if plain then none else some ("command", o.message)
  returns := if answers then "int" else "void"
  comment := if answers then "Execute the command and return the generated ID" else "Execute the command"
  carriers := if plain then [] else [(o.side.word, constructor (promoted "id" "int" .pub .null) .null
      "// TODO: Add command parameters as needed")]
  body := if answers then insertBody else updateBody
  field := "commandHandler"
  success := ("testHandleExecutesSuccessfully",
    if answers then "// TODO: Implement test for successful command execution with ID return"
    else "// TODO: Implement test for successful command execution")

theorem queryBlueprints_eq (o : Operation) (plain : Bool) :
    queryBlueprints o plain = (queryLayout o plain).pieces.map Piece.draft := by
  cases plain <;> rfl

theorem commandBlueprints_eq (o : Operation) (plain answers : Bool) :
    commandBlueprints o plain answers = (commandLayout o plain answers).pieces.map Piece.draft := by
  cases plain <;> cases answers <;> rfl

theorem sound_queryLayout {o : Operation} (named : o.Named) (plain : Bool) : (queryLayout o plain).Sound where
  named := named
  carriers := by
    cases plain
    · exact List.Sublist.refl _
    · exact List.sublist_append_right [_] [_]
  carries := by
    cases plain
    · exact List.forall_mem_cons.2 ⟨⟨"id", "int", _, _, _, by decide, rfl⟩,
        List.forall_mem_singleton.2 ⟨"data", "mixed", _, _, _, by decide, rfl⟩⟩
    · exact List.forall_mem_singleton.2 ⟨"data", "mixed", _, _, _, by decide, rfl⟩
  types := ⟨[], by cases plain <;> rfl, by simp⟩
  success := by simp [queryLayout]

theorem sound_commandLayout {o : Operation} (named : o.Named) (plain answers : Bool) :
    (commandLayout o plain answers).Sound where
  named := named
  carriers := by
    cases plain
    · exact List.sublist_append_left [_] [_]
    · exact List.nil_sublist _
  carries := by
    cases plain
    · exact List.forall_mem_singleton.2 ⟨"id", "int", _, _, _, by decide, rfl⟩
    · exact List.forall_mem_nil _
  types := ⟨[if answers then "int" else "void"], by cases plain <;> rfl, by cases answers <;> decide⟩
  success := by simp [commandLayout]

def Side.generate : Side → Command
  | query => generateQuery
  | command => generateCommand

def Side.subjectName : Side → String
  | query => "queryName"
  | command => "commandName"

theorem laidOut_eq {side : Side} {params : Params} {subject c s : String}
    (blueprints : Operation → List (Except Fault (Blueprint × List Event)))
    (context : argument params "context" = .ok c) (named : argument params subject = .ok s) :
    laidOut side params subject blueprints = collect (blueprints ⟨side, c, s⟩) := by
  rw [laidOut, context, named]

theorem Side.exists_layout (side : Side) {params : Params} {c s : String} (context : argument params "context" = .ok c)
    (subject : argument params side.subjectName = .ok s) (named : (⟨side, c, s⟩ : Operation).Named) :
    ∃ l : Layout, l.Sound ∧ l.operation = ⟨side, c, s⟩ ∧
      side.generate.handle params = collect (l.pieces.map Piece.draft) := by
  cases side with
  | query =>
    refine ⟨queryLayout ⟨.query, c, s⟩ (isOn params "no-query"), sound_queryLayout named _, rfl, ?_⟩
    rw [← queryBlueprints_eq]
    exact laidOut_eq (fun o => queryBlueprints o (isOn params "no-query")) context subject
  | command =>
    refine ⟨commandLayout ⟨.command, c, s⟩ (isOn params "no-command") (!isOn params "no-return-id"),
      sound_commandLayout named _ _, rfl, ?_⟩
    rw [← commandBlueprints_eq]
    exact laidOut_eq
      (fun o => commandBlueprints o (isOn params "no-command") (!isOn params "no-return-id")) context subject

/-- Whatever an operation is called, what is laid out for it is built and is consistent. -/
theorem generate_consistent (side : Side) {params : Params} {segments : List String} {subject : String}
    (filled : segments ≠ []) (identifiers : ∀ s ∈ segments, IsIdentifier s.toList)
    (context : params.get? "context" = some (.text (ofSegments segments))) (single : IsIdentifier subject.toList)
    (named : params.get? side.subjectName = some (.text subject)) (strictTypes : Bool) :
    ∃ events project artifacts, side.generate.handle params = (events, .ok project) ∧
      (project.build strictTypes).result = .ok artifacts ∧
      Consistent ⟨side, ofSegments segments, subject⟩ artifacts := by
  have whole : ofSegments segments ≠ "" := by
    intro empty
    have := isWhole_ofSegments filled identifiers
    rw [empty] at this
    exact absurd this (by decide)
  obtain ⟨l, sound, operation, handled⟩ := side.exists_layout (argument_eq_ok context whole)
    (argument_eq_ok named single.isSegment.1) ⟨⟨segments, filled, identifiers, rfl⟩, single⟩
  have fine : ∀ p ∈ l.pieces, p.Fine := by
    intro p hp
    obtain ⟨x, names, refers, -⟩ := sound.refers p hp
    exact refers.fine
  obtain ⟨events, project, artifacts, collected, built, made⟩ := collect_pieces fine strictTypes
  exact ⟨events, project, artifacts, handled.trans collected, built, operation ▸ sound.consistent made⟩

theorem generate_consistent_shop :
    let params : Params := ⟨[("context", "Shop\\Cart"), ("queryName", "FindItem"), ("no-query", true)]⟩
    ∃ events project artifacts, generateQuery.handle params = (events, .ok project) ∧
      (project.build true).result = .ok artifacts ∧ Consistent ⟨.query, "Shop\\Cart", "FindItem"⟩ artifacts := by
  intro params
  exact @generate_consistent .query _ ["Shop", "Cart"] _ (by decide) (by decide) rfl (by decide) rfl true

end Command

end PhpScaffold
